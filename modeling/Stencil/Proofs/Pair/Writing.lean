import Stencil.Proofs.Pair.Grammar

/-!
# Writing name/value pairs

How any pair is written down so that reading gives it back.  `protect closing t` puts a backslash
before each backslash of `t` and each occurrence of `closing`; the result holds no unescaped
`closing` (`precedes_protect`) and stands for `t` again (`unescape_protect`), whatever quotes,
comment openings or line ends `t` consists of.

`Content.written` writes each of the forms a pair can take, and its text is one of the grammar's
(`Content.valueText_written`).  The main result `readQuotedPair_written` then comes from the
grammar: the pair is read as it was, and what follows it is left.
-/

namespace Stencil.Input

/-! ## Escaping -/

/-- A text with a backslash before each backslash and each occurrence of `closing`. -/
def protect (closing : Char) : Text → Text
  | [] => []
  | c :: t =>
    if c = '\\' ∨ c = closing then '\\' :: c :: protect closing t else c :: protect closing t

lemma precedes_protect (closing : Char) (t : Text) : Precedes [closing] (protect closing t) := by
  induction t with
  | nil => exact .nil
  | cons c t ih =>
    rw [protect]
    split
    · exact .escape ih
    · rename_i hc
      obtain ⟨hb, hne⟩ := not_or.1 hc
      refine .plain hb ?_ ih
      rintro ⟨s, hs⟩
      cases hs
      exact hne rfl

/-- Escaping is undone by reading, for a terminator that stands for itself behind a backslash. -/
lemma unescape_protect {closing : Char} (hc : escaped closing = [closing]) (t : Text) :
    unescape (protect closing t) = t := by
  induction t with
  | nil => rfl
  | cons c t ih =>
    rw [protect]
    split
    · rename_i h
      have hself : escaped c = [c] := by
        obtain rfl | rfl := h
        · rfl
        · exact hc
      rw [unescape_escape, ih, hself, List.singleton_append]
    · rename_i h
      rw [unescape_plain (not_or.1 h).1, ih]

lemma escaped_of_isQuote {c : Char} (hc : Text.isQuote c = true) : escaped c = [c] := by
  obtain rfl | rfl : c = '\'' ∨ c = '"' := by simpa [Text.isQuote] using hc
  · rfl
  · rfl

/-! ## Written forms -/

/-- A text and the quote to write it in. -/
structure Quoted where
  quote : Char
  isQuote : Text.isQuote quote = true
  text : Text

def Quoted.written (q : Quoted) : Text := q.quote :: (protect q.quote q.text ++ [q.quote])

/-- Items with a comma and a space between them. -/
def joined (items : List Quoted) : Text := [',', ' '].intercalate (items.map Quoted.written)

/-- What a pair can name, with the quotes to write it in. -/
inductive Content where
  | text (value : Quoted)
  | list (items : List Quoted)
  | array (items : List Quoted)
  | mapping (target key : Text)

namespace Content

/-- The pair of a name and a content. -/
def pair (name : Text) : Content → Pair
  | text value => { name, value := .str value.text }
  | list items => { name, value := .list ((items.map Quoted.text).map .str) }
  | array items => { name, value := .tuple ((items.map Quoted.text).map .str) }
  | mapping target key => { name, value := .str key, target := some target }

/-- A content as it is written behind the name and the sign. -/
def written : Content → Text
  | text value => value.written
  | list items => '{' :: (joined items ++ ['}'])
  | array items => '[' :: (joined items ++ [']'])
  | mapping target key => '>' :: '$' :: (target ++ '{' :: (protect '}' key ++ ['}']))

/-- A pair as it is written, its name in front. -/
def line (name : Text) (content : Content) : Text := name ++ '=' :: content.written

/-- Whether a content can be written for a host with the given targets. -/
def Allowed (targets : List Text) : Content → Prop
  | mapping target _ => target ∈ targets ∧ Token ['_', ':', '.'] target
  | _ => True

end Content

/-! ## The grammar of what is written -/

lemma Quoted.items_cons (item : Quoted) {items : List Text} {gap t : Text}
    (hgap : Trivia itemMargins gap) (ht : Items items t) :
    Items (item.text :: items) (item.written ++ (gap ++ t)) := by
  have h := Items.cons item.isQuote (precedes_protect item.quote item.text) hgap ht
  rw [unescape_protect (escaped_of_isQuote item.isQuote)] at h
  simpa [Quoted.written] using h

lemma items_joined (items : List Quoted) : Items (items.map Quoted.text) (joined items) := by
  induction items with
  | nil => exact .nil
  | cons item items ih =>
    cases items with
    | nil => simpa [joined] using item.items_cons .nil .nil
    | cons next items =>
      have hgap : Trivia itemMargins [',', ' '] := .blank (by decide) (.blank (by decide) .nil)
      simpa [joined] using item.items_cons hgap ih

namespace Content

/-- What is written is a text of the pair. -/
lemma valueText_written {targets : List Text} {content : Content} (h : content.Allowed targets)
    (name : Text) : ValueText targets name (content.pair name) content.written := by
  cases content with
  | text value =>
    have hvalue : ValueText targets name _ _ :=
      .quoted value.isQuote (precedes_protect value.quote value.text)
    rwa [unescape_protect (escaped_of_isQuote value.isQuote)] at hvalue
  | list items => exact .list .nil (items_joined items)
  | array items => exact .array .nil (items_joined items)
  | mapping target key =>
    obtain ⟨htarget, htoken⟩ := h
    have hmapping : ValueText targets name _ _ :=
      .mapping .nil htoken htarget .nil (precedes_protect '}' key)
    rwa [unescape_protect rfl] at hmapping

lemma pairText_line {targets : List Text} {name : Text} {content : Content}
    (hname : Token ['_', '.'] name) (h : content.Allowed targets) :
    PairText targets (content.pair name) (content.line name) :=
  .intro hname .nil (.inl rfl) .nil (content.valueText_written h name)

end Content

/-! ## The round trip -/

/-- **What is written is read.**  A pair whose name and target are made of the characters that these
may have is given back by reading what has been written of it, with any text behind that, and this
text is what is left. -/
theorem readQuotedPair_written {targets : List Text} {name : Text} {content : Content}
    (hname : Token ['_', '.'] name) (hcontent : content.Allowed targets) (rest : Text) :
    readQuotedPair (fresh targets (content.line name ++ rest)) =
      .ok (content.pair name) ((fresh targets (content.line name ++ rest)).leaving rest) := by
  have hpair : PairText targets (content.pair name)
      (name ++ ([] ++ '=' :: ([] ++ content.written))) :=
    .intro hname .nil (.inl rfl) .nil (content.valueText_written hcontent name)
  exact readQuotedPair_fresh_eq_ok_iff.2 ⟨_, rest, hpair, rfl, rfl⟩

/-- A mapping whose key is all terminators, escapes and comment openings. -/
def awkwardContent : Content := .mapping "session".toList "\x7d\\n\\\x7d/*\"".toList

/-- The key comes back from behind its backslashes, and the brace after it is left. -/
theorem readQuotedPair_written_awkward :
    Token ['_', '.'] "b.1".toList ∧ awkwardContent.Allowed standardTargets ∧
      awkwardContent.line "b.1".toList = "b.1=>$session\x7b\\\x7d\\\\n\\\\\\\x7d/*\"\x7d".toList ∧
      readQuotedPair (fresh standardTargets (awkwardContent.line "b.1".toList ++ ['}', '#'])) =
        .ok { name := "b.1".toList, value := .str "\x7d\\n\\\x7d/*\"".toList,
              target := some "session".toList }
          ((fresh standardTargets (awkwardContent.line "b.1".toList ++ ['}', '#'])).leaving
            ['}', '#']) := by
  have hname : Token ['_', '.'] "b.1".toList := List.all_eq_true.1 rfl
  have hcontent : awkwardContent.Allowed standardTargets :=
    ⟨List.mem_map.2 ⟨"session", by simp, rfl⟩, List.all_eq_true.1 rfl⟩
  exact ⟨hname, hcontent, rfl, readQuotedPair_written hname hcontent ['}', '#']⟩

end Stencil.Input
