import Mathlib
import Stencil.Proofs.Template.Outsider
import Stencil.Proofs.Template.StandIn

/-!
# Unrelated parameters

A template parameter that nothing refers to makes no difference to a resolution.  That its name does
not occur in the text and the values at hand is not enough for this: putting in values makes texts
that may name what none of them did, and some sources and functions bring in texts of their own
(`run_replaceParams_assembled`).  What is enough is that the name cannot be put together from what
is at hand, which is the subject of `Stencil.Proofs.Template.Outsider`.

The other obstacle is that without any parameters nothing is merged, not even defaults.  So the
context has some parameter without the one in question, or the text has no default that would be put
in.  The main statement is `run_replaceParams_unrelated`.
-/

namespace Stencil.Template

open Stencil.Condition

/-! ## Built-in sources and functions -/

/-- With the built-in sources and functions it is enough that a vocabulary has what those bring in
whose names are in it. -/
lemma within_of_builtin {V : Vocabulary} {c : Context} (hsources : c.sources = builtinSources)
    (hfunctions : c.functions = builtinFunctions)
    (hkeywords : ∀ keyword, V.Writes keyword → V.TakesSource keyword)
    (hnames : ∀ name, V.Writes name → V.TakesFunction name)
    (hvalues : ∀ scope, ∀ entry ∈ c.scopes.get scope, V.Holds entry.2) : c.Within V where
  values := hvalues
  sources keyword source h hkeyword := by
    rw [hsources] at h
    exact stays_of_builtinSources h (hkeywords keyword hkeyword)
  functions name kind h hname := by
    rw [hfunctions] at h
    exact stays_of_builtin h (hnames name hname)

/-! ## The main statement -/

/-- **Unrelated parameters do not matter.**  Let a text, and the values of a context apart from what
`n` is bound to, be in a vocabulary that the registered sources and functions stay within as far as
their names are in it, and let `n` not be in the vocabulary.  Then merging the parameters into the
text comes to the same result or failure whether `n` is bound to another value or not, and leaves
contexts that differ in nothing but `n`; provided that the context has some parameter, or the text
no default that is put in where nothing is bound. -/
theorem run_replaceParams_unrelated (V : Vocabulary) (n t : Text) (v : Value) (c : Context)
    (hmark : V.Writes [escapeMark]) (hn : ¬ V.Writes n) (ht : V.Writes t)
    (hc : (c.unassign .templateParams n).Within V)
    (hparams : c.scopes.templateParams ≠ [] ∨ firstBound? [] t = none) :
    ∃ outcome c₁ c₂, (replaceParams t).run c = ended outcome c₁ ∧
      (replaceParams t).run (c.assign .templateParams n v) = ended outcome c₂ ∧
      c₁.unassign .templateParams n = c₂.unassign .templateParams n := by
  let s : Outsider := ⟨V, hmark, n, hn⟩
  have hsame : s.rid c = s.rid (c.assign .templateParams n v) := by
    simp only [Outsider.rid, Context.unassign, Context.assign, Scopes.get, Scopes.set,
      Entries.erase_insert_self, s]
  by_cases hbound : c.scopes.templateParams = []
  · -- Nothing is merged with no parameter bound, and nothing with `n` alone.
    have hnone : firstBound? [] t = none := hparams.resolve_left (not_not_intro hbound)
    have hone : firstBound? [(.str n, v)] t = none := by
      rw [← firstBound?_erase hn ht, ← hnone]
      simp [Entries.erase, Value.isNamed]
    refine ⟨.ok (.str (restoreText t)), _, _, run_replaceParams_of_none (hbound ▸ hnone),
      run_replaceParams_of_none ?_, hsame⟩
    have hparam : (c.assign .templateParams n v).scopes.templateParams = [(.str n, v)] := by
      simp [Context.assign, Scopes.set, Scopes.get, hbound, Entries.insert]
    rw [hparam, hone]
  · have hapart : s.Apart c (c.assign .templateParams n v) :=
      ⟨hsame, hc, hbound, Entries.insert_ne_nil _ _ _⟩
    have hend := Outsider.Blind.replaceParams ht c _ hapart
    generalize (replaceParams t).run c = r at hend ⊢
    generalize (replaceParams t).run (c.assign .templateParams n v) = r' at hend ⊢
    cases hend with
    | @ok a c₁ c₂ ha h => exact ⟨.ok a, c₁, c₂, rfl, rfl, h.same⟩
    | @error e c₁ c₂ h => exact ⟨.error e, c₁, c₂, rfl, rfl, h.same⟩

/-- The words of a letter to Ann, and those that lists of them are shown with. -/
def letterWords : List Text :=
  [['D', 'e', 'a', 'r'], ['A'], ['B'], ['C'], ['D'], ['A', 'n', 'n'], ['u', 's', 'e', 'r'],
   [escapeMark], ['$'], ['#'], ['\x7b'], ['\x7d'], ['['], [']'], ['('], [')'], [','], [' '], ['\''],
   ['"'], ['\\'], ['u', 'e', '0', '0', '0'], ['N', 'o', 'n', 'e']]

/-- What can be written with these words. -/
def letterVocabulary : Vocabulary := .ofWords letterWords (by decide)

lemma letterVocabulary_showsLists : letterVocabulary.ShowsLists :=
  Vocabulary.showsLists_ofWords _ (by decide) (by decide) (by decide +kernel)

/-- A parameter whose value is that of an attribute, and one whose value is a list that has it.
Another attribute is a list with nothing to resolve. -/
def letterContext : Context where
  scopes :=
    { attributes :=
        [(.str ['B'], .str "Ann".toList), (.str "roles".toList, .list [.str "user".toList])],
      templateParams :=
        [(.str ['A'], .str "$\x7bB\x7d".toList), (.str ['C'], .list [.str "$\x7bB\x7d".toList])] }

/-- What starts in another way than the words is not written with them. -/
lemma not_writes_letter {ch : Char} {t : Text} (hch : some ch ∉ letterWords.map List.head?) :
    ¬ letterVocabulary.Writes (ch :: t) := fun h => hch h.head?_mem

/-- No word is left for the end of this name behind the word that it starts with. -/
lemma not_writes_users : ¬ letterVocabulary.Writes "users".toList := by
  intro h
  obtain ⟨w, hw, hne, hstart, hrest⟩ := Vocabulary.Spelled.exists_word h
  have huser : ∀ w ∈ letterWords, w ≠ [] → w <+: "users".toList → w = "user".toList := by decide
  rw [huser w hw hne hstart] at hrest
  exact not_writes_letter (by decide) hrest

lemma letterContext_within :
    (letterContext.unassign .templateParams "users".toList).Within letterVocabulary := by
  have hname : letterVocabulary.Writes "Ann".toList := ⟨["Ann".toList], by decide, rfl⟩
  have hrole : letterVocabulary.Writes "user".toList := ⟨["user".toList], by decide, rfl⟩
  have htoken : letterVocabulary.Writes "$\x7bB\x7d".toList :=
    ⟨[['$'], ['\x7b'], ['B'], ['\x7d']], by decide, rfl⟩
  have hlist : ∀ t, letterVocabulary.Writes t →
      letterVocabulary.Holds (.list [.str t]) := fun t ht =>
    .list (List.forall_mem_singleton.2 (.str ht))
      (letterVocabulary_showsLists [.str t]
        (List.forall_mem_singleton.2 (Vocabulary.Holds.str ht).shows)).1
      (.inr letterVocabulary_showsLists)
  -- No word starts as one of the keywords and names does that bring in texts of their own.
  refine within_of_builtin rfl rfl (fun keyword h => ?_) (fun name h => ?_) fun scope => ?_
  · constructor
    all_goals
      rintro rfl
      exact absurd h (not_writes_letter (by decide))
  · constructor
    all_goals
      rintro rfl
      exact absurd h (not_writes_letter (by decide))
  · cases scope with
    | attributes =>
      exact List.forall_mem_cons.2 ⟨.str hname, List.forall_mem_singleton.2 (hlist _ hrole)⟩
    | templateParams =>
      exact List.forall_mem_cons.2 ⟨.str htoken, List.forall_mem_singleton.2 (hlist _ htoken)⟩
    | _ => exact List.forall_mem_nil _

/-- A parameter whose name starts with a word of the letter, but cannot be put together from its
words. -/
theorem run_replaceParams_unrelated_users :
    letterVocabulary.Writes [escapeMark] ∧ ¬ letterVocabulary.Writes "users".toList ∧
      letterVocabulary.Writes "Dear #\x7bA\x7d, #\x7bC\x7d, #\x7bD\x7d".toList ∧
      (letterContext.unassign .templateParams "users".toList).Within letterVocabulary ∧
      letterContext.scopes.templateParams ≠ [] ∧
      ∃ outcome c₁ c₂,
        (replaceParams "Dear #\x7bA\x7d, #\x7bC\x7d, #\x7bD\x7d".toList).run letterContext =
          ended outcome c₁ ∧
        (replaceParams "Dear #\x7bA\x7d, #\x7bC\x7d, #\x7bD\x7d".toList).run
            (letterContext.assign .templateParams "users".toList (.int 1)) =
          ended outcome c₂ ∧
        c₁.unassign .templateParams "users".toList =
          c₂.unassign .templateParams "users".toList := by
  have hmark : letterVocabulary.Writes [escapeMark] := ⟨[[escapeMark]], by decide, rfl⟩
  have ht : letterVocabulary.Writes "Dear #\x7bA\x7d, #\x7bC\x7d, #\x7bD\x7d".toList :=
    ⟨["Dear".toList, [' '], ['#'], ['\x7b'], ['A'], ['\x7d'], [','], [' '], ['#'], ['\x7b'], ['C'],
      ['\x7d'], [','], [' '], ['#'], ['\x7b'], ['D'], ['\x7d']], by decide, rfl⟩
  have hparams : letterContext.scopes.templateParams ≠ [] := List.cons_ne_nil _ _
  exact ⟨hmark, not_writes_users, ht, letterContext_within, hparams,
    run_replaceParams_unrelated letterVocabulary _ _ (.int 1) letterContext hmark not_writes_users
      ht letterContext_within (.inl hparams)⟩

/-! ## Names that are put together -/

/-- A parameter whose value names another by way of an attribute. -/
def splicedContext : Context where
  scopes :=
    { attributes := [(.str ['x'], .str ['a'])],
      templateParams := [(.str ['p'], .str "#\x7b$attribute\x7bx\x7db\x7d".toList)] }

/-- A parameter whose value names another by way of a source. -/
def convertedContext : Context where
  scopes :=
    { templateParams := [(.str ['p'], .str "$templateParam\x7b$boolean\x7bx\x7d\x7d".toList)] }

/-- Parameters that are named in no text and no value and still make a difference: where no other is
bound and a default is put in because of it; where its name is put together from values; and where a
source brings its name in. -/
theorem run_replaceParams_assembled :
    (¬ ['n'] <:+: "#\x7bk,d\x7d".toList ∧
      (replaceParams "#\x7bk,d\x7d".toList).run {} = .ok (.str "#\x7bk,d\x7d".toList) {} ∧
      (replaceParams "#\x7bk,d\x7d".toList).run
          (({} : Context).assign .templateParams ['n'] (.str ['v'])) =
        .ok (.str ['d']) (({} : Context).assign .templateParams ['n'] (.str ['v']))) ∧
    ((∀ t ∈ ["#\x7bp\x7d", "#\x7b$attribute\x7bx\x7db\x7d", "a"],
        ¬ "ab".toList <:+: t.toList) ∧
      (replaceParams "#\x7bp\x7d".toList).run splicedContext =
        .ok (.str "#\x7bab\x7d".toList) splicedContext ∧
      (replaceParams "#\x7bp\x7d".toList).run
          (splicedContext.assign .templateParams "ab".toList (.str ['v'])) =
        .ok (.str ['v']) (splicedContext.assign .templateParams "ab".toList (.str ['v']))) ∧
    (∀ t ∈ ["#\x7bp\x7d", "$templateParam\x7b$boolean\x7bx\x7d\x7d"],
        ¬ "false".toList <:+: t.toList) ∧
      (replaceParams "#\x7bp\x7d".toList).run convertedContext = .ok .none convertedContext ∧
      (replaceParams "#\x7bp\x7d".toList).run
          (convertedContext.assign .templateParams "false".toList (.str ['v'])) =
        .ok (.str ['v']) (convertedContext.assign .templateParams "false".toList (.str ['v'])) := by
  refine ⟨⟨by decide, ?_, ?_⟩, ⟨by decide, ?_, ?_⟩, by decide, ?_, ?_⟩
  all_goals cbv

end Stencil.Template
