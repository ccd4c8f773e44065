/-
Gaps: the stretches of a text between its lexemes.

A gap holds blanks, comments from `--` to the end of the line, and comments between
`/*` and `*/`.  `split` cuts the longest gap off the head of a text.  A comment that
is never closed belongs to no gap: it is left in the text, where it reads as an error.
-/
import QueryCanon.Unicode.Blank

namespace QueryCanon
namespace Gap

open Unicode (isBlank)

/-- Cuts after the first `*/`, if there is one. -/
def closeBlock : List Char → Option (List Char × List Char)
  | [] => none
  | '*' :: '/' :: rest => some (['*', '/'], rest)
  | c :: rest => (closeBlock rest).map fun (body, left) => (c :: body, left)

/-- The cut loses nothing. -/
theorem append_of_closeBlock {text body left : List Char}
    (h : closeBlock text = some (body, left)) : body ++ left = text := by
  fun_induction closeBlock text generalizing body left with
  | case1 => cases h
  | case2 rest =>
    cases h
    rfl
  | case3 c rest _ ih =>
    obtain ⟨⟨b, l⟩, hcut, he⟩ := Option.map_eq_some_iff.mp h
    cases he
    simp [ih hcut]

theorem length_of_closeBlock {text body left : List Char}
    (h : closeBlock text = some (body, left)) : left.length ≤ text.length := by
  rw [← append_of_closeBlock h, List.length_append]
  exact Nat.le_add_left _ _

/-- The longest gap at the head of a text, and the text after it. -/
def split : List Char → List Char × List Char
  | [] => ([], [])
  | '-' :: '-' :: rest =>
    let more := split (rest.dropWhile (· != '\n'))
    ('-' :: '-' :: rest.takeWhile (· != '\n') ++ more.1, more.2)
  | '/' :: '*' :: rest =>
    match _hcut : closeBlock rest with
    | some (body, left) =>
      let more := split left
      ('/' :: '*' :: body ++ more.1, more.2)
    | none => ([], '/' :: '*' :: rest)
  | c :: rest =>
    if isBlank c then
      let more := split rest
      (c :: more.1, more.2)
    else ([], c :: rest)
termination_by text => text.length
decreasing_by
  · have := (List.dropWhile_suffix (· != '\n') : rest.dropWhile (· != '\n') <:+ rest).length_le
    simp only [List.length_cons]
    omega
  · have := length_of_closeBlock _hcut
    simp only [List.length_cons]
    omega
  · simp

/-- The cut loses nothing. -/
theorem append_split (text : List Char) : (split text).1 ++ (split text).2 = text := by
  fun_induction split text with
  | case1 => rfl
  | case2 rest more ih =>
    simp only [List.cons_append, List.append_assoc, more, ih, List.takeWhile_append_dropWhile]
  | case3 rest body left h more ih =>
    simp only [List.cons_append, List.append_assoc, more, ih, append_of_closeBlock h]
  | case4 => rfl
  | case5 c rest _ _ _ more ih => simp [more, ih]
  | case6 => rfl

theorem length_split_le (text : List Char) : (split text).2.length ≤ text.length := by
  have h := congrArg List.length (append_split text)
  rw [List.length_append] at h
  omega

end Gap
end QueryCanon
