import Stencil.Proofs.Script.Conduct
import Stencil.Template.Resolve

/-!
# Agreement of resolutions

Two resolutions whose requests are answered differently may do the same all the same.  This file has
the relation between resolutions that such comparisons are made by, `AgreeOn`, and shows that it is
kept by all that resolutions are put together from: if the answers agree on what sources and
conditions ask for, then so do the rounds, the conditions and the answers built on them.

The relation has terms, which a comparison sets for itself (`Terms`): what is kept of the contexts,
which failures there may be, and what is asked for.  Contexts are only known by what is kept of
them, so sources and conditions have to behave in all of these.
-/

namespace Stencil.Template

open Stencil.Condition

/-- The terms of a comparison. -/
structure Terms where
  /-- What the contexts of runs are, from start to end. -/
  kept : Context → Prop
  /-- The failures that runs may end in. -/
  fails : Failure → Prop
  /-- What sources ask for. -/
  sourceAsks : Request → Prop
  /-- What conditions ask for. -/
  conditionAsks : Request → Prop
  enter : ∀ {c : Context} (e : Event), kept c → kept (c.enter e)
  assign : ∀ {c : Context} (scope : Scope) (name : Text) (value : Value),
    kept c → kept (c.assign scope name value)
  resolution : ∀ fault, fails (.resolution fault)
  source : ∀ {c : Context} {keyword : Text} {s : Source}, kept c →
    c.sources.find? keyword = some s →
      ∀ key, (s key).Behaves sourceAsks fails fun _ => True
  condition : ∀ {c : Context}, kept c → ∀ condition,
    (Condition.evaluate c.functions Resolver.ofHost condition).Behaves conditionAsks fails
      fun _ => True

/-- An outcome within the terms. -/
def Terms.Admits {α : Type} (T : Terms) : EStateM.Result Failure Context α → Prop
  | .ok _ c => T.kept c
  | .error e c => T.fails e ∧ T.kept c

/-- Two resolutions have the same runs from contexts within the terms, and these runs end within
them. -/
def AgreeOn {α : Type} (T : Terms) (x y : Resolution α) : Prop :=
  ∀ c : Context, T.kept c → x.run c = y.run c ∧ T.Admits (x.run c)

variable {α β : Type} {T : Terms}

/-! ## Steps -/

namespace AgreeOn

protected lemma pure (a : α) : AgreeOn T (pure a) (pure a) := fun _ hc => ⟨rfl, hc⟩

protected lemma throw {e : Failure} (he : T.fails e) :
    AgreeOn T (throw e : Resolution α) (throw e) := fun _ hc => ⟨rfl, he, hc⟩

protected lemma bind {x y : Resolution α} {f g : α → Resolution β} (hx : AgreeOn T x y)
    (hf : ∀ a, AgreeOn T (f a) (g a)) : AgreeOn T (x >>= f) (y >>= g) := by
  intro c hc
  obtain ⟨hrun, hend⟩ := hx c hc
  rw [EStateM.run_bind, EStateM.run_bind, ← hrun]
  cases hx : x.run c with
  | ok a c' =>
    rw [hx] at hend
    exact hf a c' hend
  | error e c' =>
    rw [hx] at hend
    exact ⟨rfl, hend⟩

protected lemma map {x y : Resolution α} (f : α → β) (hx : AgreeOn T x y) :
    AgreeOn T (f <$> x) (f <$> y) := by
  rw [map_eq_pure_bind, map_eq_pure_bind]
  exact hx.bind fun a => .pure (f a)

/-- What depends on the context agrees if it does for every context within the terms. -/
lemma get_bind {f g : Context → Resolution α}
    (hf : ∀ c, T.kept c → AgreeOn T (f c) (g c)) : AgreeOn T (get >>= f) (get >>= g) :=
  fun c hc => hf c hc c hc

/-- Changes that stay within the terms agree. -/
lemma modify {f : Context → Context} (hf : ∀ c, T.kept c → T.kept (f c)) :
    AgreeOn T (modify f) (modify f) := fun c hc => ⟨rfl, hf c hc⟩

lemma report (level : Level) (channel : Channel) (text : Text) :
    AgreeOn T (report level channel text) (report level channel text) :=
  .modify fun _ hc => T.enter _ hc

/-! ## Scripts -/

section Scripts

variable {h h' : Request → Resolution Value}

lemma script {asks : Request → Prop} (hh : ∀ q, asks q → AgreeOn T (h q) (h' q))
    {yields : α → Prop} {x : Script α} (hx : x.Behaves asks T.fails yields) :
    AgreeOn T (x.run h) (x.run h') := by
  induction hx with
  | value _ => exact .pure _
  | failure he => exact .throw he
  | @ask q next hq _ _ ihv ihf =>
    intro c hc
    obtain ⟨hrun, hend⟩ := hh q hq c hc
    simp only [EStateM.run] at hrun hend ⊢
    simp only [Script.run]
    rw [← hrun]
    cases hres : h q c with
    | ok v c' =>
      rw [hres] at hend
      exact ihv v c' hend
    | error e c' =>
      rw [hres] at hend
      exact ihf e hend.1 c' hend.2

lemma checkBy (hh : ∀ q, T.conditionAsks q → AgreeOn T (h q) (h' q)) (condition : Option Text) :
    AgreeOn T (checkBy h condition) (checkBy h' condition) :=
  .get_bind fun _ hc => .script hh (T.condition hc condition)

end Scripts

/-! ## Rounds -/

mutual

lemma mapTexts {f g : Text → Resolution Value} (hf : ∀ t, AgreeOn T (f t) (g t)) :
    (v : Value) → AgreeOn T (mapTexts f v) (mapTexts g v)
  | .str t => hf t
  | .list items => (mapAllTexts hf items).map _
  | .tuple items => (mapAllTexts hf items).map _
  | .none => .pure _
  | .bool _ => .pure _
  | .int _ => .pure _
  | .float _ => .pure _
  | .dict _ => .pure _
  | .set _ => .pure _

lemma mapAllTexts {f g : Text → Resolution Value} (hf : ∀ t, AgreeOn T (f t) (g t)) :
    (items : List Value) → AgreeOn T (mapAllTexts f items) (mapAllTexts g items)
  | [] => .pure _
  | v :: vs => (mapTexts hf v).bind fun _ => (mapAllTexts hf vs).bind fun _ => .pure _

end

lemma reportStages (stages : List Text) :
    AgreeOn T (reportStages stages) (reportStages stages) := by
  induction stages with
  | nil => exact .pure ()
  | cons stage stages ih => exact (AgreeOn.report _ _ _).bind fun _ => ih

/-- The next rounds of two resolutions, if there are any. -/
inductive Next (T : Terms) :
    Option (Text → Resolution Value) → Option (Text → Resolution Value) → Prop where
  | none : Next T none none
  | some {f g : Text → Resolution Value} (hf : ∀ t, AgreeOn T (f t) (g t)) :
      Next T (some f) (some g)

lemma mergeParams {next next' : Option (Text → Resolution Value)} (hnext : Next T next next')
    (t : Text) : AgreeOn T (mergeParams next t) (mergeParams next' t) := by
  refine .get_bind fun c hc => ?_
  dsimp only
  split
  · exact .pure _
  · cases hnext with
    | none => exact .throw (T.resolution _)
    | some hf =>
      dsimp only
      split
      · exact mapTexts hf _
      · refine (AgreeOn.reportStages _).bind fun _ => ?_
        split
        · exact .throw (T.resolution _)
        · exact hf _

lemma settle {next next' : Option (Text → Resolution Value)} (hnext : Next T next next')
    (v : Value) : AgreeOn T (settle next v) (settle next' v) := by
  cases v with
  | str t => exact mergeParams hnext t
  | _ => exact .pure _

section Rounds

variable {h h' : Request → Resolution Value} (hh : ∀ q, T.sourceAsks q → AgreeOn T (h q) (h' q))

include hh

lemma tokenValue (m : Delimiters) (left right : Text) :
    AgreeOn T (tokenValue h m left right) (tokenValue h' m left right) := by
  unfold Template.tokenValue
  cases token? m right with
  | none => exact .pure _
  | some token =>
    refine .get_bind fun c hc => ?_
    cases hs : c.sources.find? token.keyword with
    | some source => exact (script hh (T.source hc hs token.key)).bind fun v => .pure _
    | none =>
      dsimp only
      split
      · exact (AgreeOn.report _ _ _).bind fun _ => .pure _
      · exact .throw (T.resolution _)

lemma substitute (m : Delimiters) (left right : Text) :
    AgreeOn T (substitute h m left right) (substitute h' m left right) := by
  induction left generalizing right with
  | nil =>
    refine (tokenValue hh m [] right).bind fun token => ?_
    cases token with
    | none => exact .pure _
    | some token => exact .pure _
  | cons c left ih =>
    unfold Template.substitute
    split
    · exact ih _
    · refine (tokenValue hh m (c :: left) right).bind fun token => ?_
      cases token with
      | none => exact ih _
      | some token => exact ih _

lemma resolveText (left : Nat) (m : Delimiters) (t : Text) :
    AgreeOn T (resolveText h left m t) (resolveText h' left m t) := by
  induction left generalizing m t with
  | zero => exact (substitute hh m _ _).bind fun v => settle .none v
  | succ left ih => exact (substitute hh m _ _).bind fun v => settle (.some (ih {})) v

lemma nextRound (left : Nat) : Next T (nextRound h left) (nextRound h' left) := by
  cases left with
  | zero => exact .none
  | succ left => exact .some (resolveText hh left {})

lemma resolveValueBy (v : Value) : AgreeOn T (resolveValueBy h v) (resolveValueBy h' v) :=
  .get_bind fun _ _ => (mapTexts (resolveText hh _ {}) v).map restore

lemma resolveVariablesBy (m : Delimiters) (t : Text) :
    AgreeOn T (resolveVariablesBy h m t) (resolveVariablesBy h' m t) :=
  .get_bind fun _ _ => (resolveText hh _ m t).map restore

lemma replaceParamsBy (t : Text) : AgreeOn T (replaceParamsBy h t) (replaceParamsBy h' t) :=
  .get_bind fun _ _ => (mergeParams (nextRound hh _) t).map restore

end Rounds

/-! ## Requests -/

/-- Evaluations under a raised count agree if they do on the terms `U` that raising the count leads
to, and that lowering it leads back from.  They need only agree where the limit allows them. -/
lemma nested {U : Terms} (condition : Text) {x y : Resolution Value}
    (hraise : ∀ c, T.kept c → U.kept { c with evalDepth := c.evalDepth + 1 })
    (hlower : ∀ c, U.kept c → T.kept { c with evalDepth := c.evalDepth - 1 })
    (hfails : ∀ e, U.fails e → T.fails e)
    (hx : ∀ c, T.kept c → c.evalDepth < c.mergeLimit → AgreeOn U x y) :
    AgreeOn T (nested condition x) (nested condition y) := by
  intro c hc
  unfold Template.nested
  -- At the limit neither is evaluated; below it the count is raised, and lowered again however the
  -- evaluation ends.
  by_cases hlimit : c.mergeLimit ≤ c.evalDepth
  · simp only [EStateM.run, if_pos hlimit]
    exact ⟨trivial, T.resolution _, hc⟩
  · obtain ⟨hrun, hend⟩ := hx c hc (by omega) _ (hraise c hc)
    simp only [EStateM.run] at hrun hend
    simp only [EStateM.run, if_neg hlimit, ← hrun]
    cases hres : x { c with evalDepth := c.evalDepth + 1 } with
    | ok v c' =>
      rw [hres] at hend
      exact ⟨trivial, hlower c' hend⟩
    | error e c' =>
      rw [hres] at hend
      exact ⟨trivial, hfails e hend.1, hlower c' hend.2⟩

/-- Requests agree if the calls do that they are left to. -/
lemma answerWith {call call' : Request → Resolution Value} {q : Request}
    (hcall : q.IsCall → AgreeOn T (call q) (call' q))
    (hnested : ∀ condition, q = .checkNested condition →
      AgreeOn T (Template.nested condition (call q)) (Template.nested condition (call' q))) :
    AgreeOn T (answerWith call q) (answerWith call' q) := by
  cases q with
  | read scope name => exact .get_bind fun _ _ => .pure _
  | assign scope name value =>
    exact (AgreeOn.modify fun _ hc => T.assign scope name value hc).bind fun _ => .pure _
  | note message =>
    exact (AgreeOn.modify fun _ hc => T.enter (.note message) hc).bind fun _ => .pure _
  | report record =>
    exact (AgreeOn.modify fun _ hc => T.enter (.record record) hc).bind fun _ => .pure _
  | stack => exact .get_bind fun _ _ => .pure _
  | checkNested condition => exact hnested condition rfl
  | resolve v => exact hcall trivial
  | resolveMarked marks t => exact hcall trivial
  | replaceParams t => exact hcall trivial
  | check condition => exact hcall trivial

/-- Calls agree if the answers do to what is asked for on their behalf. -/
lemma callBy {h h' : Request → Resolution Value}
    (hsource : ∀ q, T.sourceAsks q → AgreeOn T (h q) (h' q))
    (hcondition : ∀ q, T.conditionAsks q → AgreeOn T (h q) (h' q)) {q : Request}
    (hq : q.IsCall) : AgreeOn T (callBy h q) (callBy h' q) := by
  cases q with
  | resolve v => exact .resolveValueBy hsource v
  | resolveMarked marks t => exact .resolveVariablesBy hsource marks t
  | replaceParams t => exact .replaceParamsBy hsource t
  | check condition => exact (AgreeOn.checkBy hcondition _).map _
  | _ => exact hq.elim

end AgreeOn

end Stencil.Template
