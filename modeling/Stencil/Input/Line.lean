import Stencil.Input.Basic

/-!
# Lines

Reading the rest of a line.  In the source a line ends at a newline, before which one carriage
return is dropped; a backslash at its end joins the next line to it, and a backslash before the
letter `n` stands for a newline.  Among pushed-back characters a newline or a carriage return ends
the line as well, and such a line is given as it stands.
-/

namespace Stencil.Input

/-! ## Lines of the source -/

/-- Backslashes before the letter `n` made newlines. -/
def expandNewlines : Text → Text
  | '\\' :: 'n' :: t => '\n' :: expandNewlines t
  | c :: t => c :: expandNewlines t
  | [] => []

/-- A line without the carriage return that may end it. -/
def dropReturn (line : Text) : Text :=
  if line.getLast? = some '\r' then line.dropLast else line

theorem length_dropReturn_le (line : Text) : (dropReturn line).length ≤ line.length := by
  unfold dropReturn
  split <;> simp

/-- What stands before and after the first newline of a text. -/
def splitLine (t : Text) : Text × Text :=
  (t.takeWhile (· != '\n'), (t.dropWhile (· != '\n')).drop 1)

theorem length_splitLine_le (t : Text) :
    (splitLine t).1.length + (splitLine t).2.length ≤ t.length := by
  have := congrArg List.length (List.takeWhile_append_dropWhile (p := (· != '\n')) (l := t))
  simp only [splitLine, List.length_drop]
  simp only [List.length_append] at this
  omega

theorem ne_nil_of_expandNewlines {t : Text} (h : expandNewlines t ≠ []) : t ≠ [] := by
  rintro rfl
  exact h rfl

/-- A line of the source as it is given: `before` in front, newlines expanded. -/
def lineText (before t : Text) : Text := expandNewlines (before ++ dropReturn (splitLine t).1)

/-- A line that is joined to the next one is not empty, so that joining comes to an end. -/
theorem length_splitLine_lt {before t : Text} (h : (lineText before t).getLast? = some '\\') :
    (splitLine t).2.length < before.length + t.length := by
  have hn : 0 < (before ++ dropReturn (splitLine t).1).length := by
    refine List.length_pos_iff.2 (ne_nil_of_expandNewlines ?_)
    intro he
    simp [lineText, he] at h
  have hd := length_dropReturn_le (splitLine t).1
  have hl := length_splitLine_le t
  simp only [List.length_append] at hn
  omega

/-- The line that a text starts with, joined with the lines its backslashes join to it, and the
text after them.  `before` is put in front of the first of the lines. -/
def joinLines (before t : Text) : Text × Text :=
  if _h : (lineText before t).getLast? = some '\\' then
    let tail := joinLines [] (splitLine t).2
    ((lineText before t).dropLast ++ tail.1, tail.2)
  else (lineText before t, (splitLine t).2)
termination_by before.length + t.length
decreasing_by
  have := length_splitLine_lt _h
  simpa using this

/-! ## Lines of an input -/

/-- How a line goes on through the pushed-back characters: the line and the characters left if it
ends among them, the characters it starts with otherwise. -/
def pushedLine : Text → Text × Option Text
  | [] => ([], none)
  | c :: t =>
    if c = '\r' ∨ c = '\n' then
      match t with
      | d :: u => ([], some (if d = '\r' ∨ d = '\n' then u else d :: u))
      | [] => ([], some [])
    else (c :: (pushedLine t).1, (pushedLine t).2)

/-- The rest of the current line. -/
def readLine (i : Input) : EStateM.Result InputFault Input Text :=
  match pushedLine i.pushback with
  | (line, some left) => .ok line { i with pushback := left }
  | (line, none) =>
    if i.isClosed then .error .closed { i with pushback := [], isOpen := true }
    else
      let joined := joinLines line i.rest
      .ok joined.1 { i with pushback := [], rest := joined.2, isOpen := true }

/-! ## Nothing is added -/

theorem length_joinLines_le (before t : Text) : (joinLines before t).2.length ≤ t.length := by
  have hl := length_splitLine_le t
  rw [joinLines]
  split
  · rename_i h
    have := length_splitLine_lt h
    have := length_joinLines_le [] (splitLine t).2
    simp
    omega
  · simp
    omega
termination_by before.length + t.length

theorem length_pushedLine_le {t line left : Text} (h : pushedLine t = (line, some left)) :
    left.length ≤ t.length := by
  induction t generalizing line with
  | nil => simp [pushedLine] at h
  | cons c t ih =>
    unfold pushedLine at h
    split at h
    · split at h
      · simp only [Prod.mk.injEq, Option.some.injEq] at h
        rw [← h.2]
        split
        · simp
          omega
        · simp
      · simp only [Prod.mk.injEq, Option.some.injEq] at h
        simp [← h.2]
    · simp only [Prod.mk.injEq] at h
      have hp : pushedLine t = ((pushedLine t).1, some left) := by rw [← h.2]
      have := ih hp
      simp
      omega

theorem size_of_readLine {i j : Input} {t : Text} (h : i.readLine = .ok t j) : j.size ≤ i.size := by
  unfold readLine at h
  split at h
  · rename_i line left hp
    cases h
    have := length_pushedLine_le hp
    simp [size]
    omega
  · split at h
    · simp at h
    · rename_i line hp hc
      cases h
      have := length_joinLines_le line i.rest
      simp [size]
      omega

end Stencil.Input
