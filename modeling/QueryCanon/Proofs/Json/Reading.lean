/-
Documents out of their text.

`Json.read?` reads any layout of a document that has no number in it: blanks may stand between
its parts, and a character of a string may be written in each of its ways, but for the pairs of
codes that stand for one character.  What `Json.pretty` prints is read back (`read?_pretty`).
-/
import QueryCanon.Json.Basic

namespace QueryCanon
namespace Json

/-! ### Strings -/

/-- The blanks that may stand between the parts of a document. -/
def isBlank (c : Char) : Bool := c == ' ' || c == '\n' || c == '\r' || c == '\t'

def skipBlanks (cs : List Char) : List Char := cs.dropWhile isBlank

/-- The number that a digit stands for, in lower or upper case. -/
def hexValue? (c : Char) : Option Nat :=
  if '0' ≤ c ∧ c ≤ '9' then some (c.toNat - 48)
  else if 'a' ≤ c ∧ c ≤ 'f' then some (c.toNat - 87)
  else if 'A' ≤ c ∧ c ≤ 'F' then some (c.toNat - 55)
  else none

/-- The character whose code the four digits are. -/
def coded? (a b c d : Char) : Option Char := do
  let high := (← hexValue? a) * 16 + (← hexValue? b)
  let code := high * 256 + ((← hexValue? c) * 16 + (← hexValue? d))
  if code.isValidChar then return Char.ofNat code else none

/-- The character that one behind a backslash stands for. -/
def unescape? : Char → Option Char
  | '"' => some '"'
  | '\\' => some '\\'
  | '/' => some '/'
  | 'b' => some '\x08'
  | 'f' => some '\x0c'
  | 'n' => some '\n'
  | 'r' => some '\r'
  | 't' => some '\t'
  | _ => none

/-- A character, if it is one, in front of those that are read behind it. -/
def before (char : Option Char) (read : Option (List Char × List Char)) :
    Option (List Char × List Char) := do
  let c ← char
  let (body, behind) ← read
  return (c :: body, behind)

/-- The characters of a string up to its closing quote, and what stands behind that. -/
def readBody : List Char → Option (List Char × List Char)
  | [] => none
  | '"' :: rest => some ([], rest)
  | '\\' :: 'u' :: a :: b :: c :: d :: rest => before (coded? a b c d) (readBody rest)
  | '\\' :: c :: rest => before (unescape? c) (readBody rest)
  | c :: rest => before (if c.toNat < 32 then none else some c) (readBody rest)

/-- A key and the colon behind it. -/
def readKey (cs : List Char) : Option (String × List Char) := do
  let '"' :: rest := skipBlanks cs | none
  let (body, behind) ← readBody rest
  let ':' :: rest := skipBlanks behind | none
  return (String.ofList body, rest)

/-! ### Values -/

mutual

/-- The value that comes next, and what stands behind it.  Each part takes a character or more,
so `fuel` need be no more than there are. -/
def readValue : (fuel : Nat) → List Char → Option (Json × List Char)
  | 0, _ => none
  | fuel + 1, cs =>
    match skipBlanks cs with
    | 'n' :: 'u' :: 'l' :: 'l' :: rest => some (.null, rest)
    | 't' :: 'r' :: 'u' :: 'e' :: rest => some (.bool true, rest)
    | 'f' :: 'a' :: 'l' :: 's' :: 'e' :: rest => some (.bool false, rest)
    | '"' :: rest => do
      let (body, behind) ← readBody rest
      return (.string (String.ofList body), behind)
    | '[' :: rest =>
      if (skipBlanks rest).head? = some ']' then some (.array [], (skipBlanks rest).tail)
      else do
        let (item, rest) ← readValue fuel rest
        let (items, rest) ← readItems fuel rest
        return (.array (item :: items), rest)
    | '\x7b' :: rest =>
      if (skipBlanks rest).head? = some '\x7d' then some (.object [], (skipBlanks rest).tail)
      else do
        let (key, rest) ← readKey rest
        let (value, rest) ← readValue fuel rest
        let (fields, rest) ← readFields fuel rest
        return (.object ((key, value) :: fields), rest)
    | _ => none

/-- The items of an array behind the first, up to its end. -/
def readItems : (fuel : Nat) → List Char → Option (List Json × List Char)
  | 0, _ => none
  | fuel + 1, cs =>
    match skipBlanks cs with
    | ']' :: rest => some ([], rest)
    | ',' :: rest => do
      let (item, rest) ← readValue fuel rest
      let (items, rest) ← readItems fuel rest
      return (item :: items, rest)
    | _ => none

/-- The fields of an object behind the first, up to its end. -/
def readFields : (fuel : Nat) → List Char → Option (List (String × Json) × List Char)
  | 0, _ => none
  | fuel + 1, cs =>
    match skipBlanks cs with
    | '\x7d' :: rest => some ([], rest)
    | ',' :: rest => do
      let (key, rest) ← readKey rest
      let (value, rest) ← readValue fuel rest
      let (fields, rest) ← readFields fuel rest
      return ((key, value) :: fields, rest)
    | _ => none

end

/-- The document that a text is, with nothing but blanks around it. -/
def read? (text : String) : Option Json := do
  let (j, rest) ← readValue text.toList.length text.toList
  if (skipBlanks rest).isEmpty then return j else none

/-! ### What is printed is read back -/

variable {cs tail : List Char} {c : Char} {fuel depth : Nat}

theorem hexValue?_hexDigit : ∀ n < 16, hexValue? (hexDigit n) = some n := by decide

theorem coded?_control (h : c.toNat < 32) :
    coded? '0' '0' (hexDigit (c.toNat / 16)) (hexDigit (c.toNat % 16)) = some c := by
  have hzero : hexValue? '0' = some 0 := rfl
  have hcode : c.toNat / 16 * 16 + c.toNat % 16 = c.toNat := by omega
  have hvalid : c.toNat.isValidChar := c.valid
  simp [coded?, hzero, hexValue?_hexDigit (c.toNat / 16) (by omega),
    hexValue?_hexDigit (c.toNat % 16) (by omega), hcode, hvalid]

theorem readBody_escape (c : Char) (cs : List Char) :
    readBody (escape c ++ cs) = before (some c) (readBody cs) := by
  unfold escape
  -- The seven characters that have a letter for their escape.
  iterate 7
    split
    · subst_vars
      rfl
  split
  next hcontrol =>
    rw [← coded?_control hcontrol]
    rfl
  next hquote hbackslash _ _ _ _ _ hcontrol =>
    rw [List.singleton_append, readBody, if_neg hcontrol]
    · exact hquote
    · exact fun _ _ _ _ _ hc _ => hbackslash hc
    · exact fun _ _ hc _ => hbackslash hc

theorem readBody_flatMap_escape (body tail : List Char) :
    readBody (body.flatMap escape ++ '"' :: tail) = some (body, tail) := by
  induction body with
  | nil => rfl
  | cons c body ih =>
    rw [List.flatMap_cons, List.append_assoc, readBody_escape, ih]
    rfl

theorem quote_append (s : String) (tail : List Char) :
    quote s ++ tail = '"' :: (s.toList.flatMap escape ++ '"' :: tail) := by
  simp [quote]

/-! ### Layout -/

theorem skipBlanks_cons (h : isBlank c = false) : skipBlanks (c :: cs) = c :: cs := by
  rw [skipBlanks, List.dropWhile_cons_of_neg (by simp [h])]

theorem skipBlanks_newline (depth : Nat) (cs : List Char) :
    skipBlanks (newline depth ++ cs) = skipBlanks cs := by
  refine List.dropWhile_append_of_pos fun c hc => ?_
  rcases List.mem_cons.mp hc with rfl | hc
  · rfl
  · rw [List.eq_of_mem_replicate hc]
    rfl

/-- Blanks before a value do not matter. -/
theorem readValue_of_skipBlanks_eq {cs cs' : List Char} (h : skipBlanks cs = skipBlanks cs')
    (fuel : Nat) : readValue fuel cs = readValue fuel cs' := by
  cases fuel with
  | zero => rfl
  | succ fuel => rw [readValue, readValue, h]

theorem readValue_newline (fuel depth : Nat) (cs : List Char) :
    readValue fuel (newline depth ++ cs) = readValue fuel cs :=
  readValue_of_skipBlanks_eq (skipBlanks_newline depth cs) fuel

theorem readValue_space (fuel : Nat) (cs : List Char) :
    readValue fuel (' ' :: cs) = readValue fuel cs :=
  readValue_of_skipBlanks_eq (by rfl) fuel

theorem readKey_quote (depth : Nat) (key : String) (cs : List Char) :
    readKey (newline depth ++ quote key ++ ':' :: ' ' :: cs) = some (key, ' ' :: cs) := by
  have hcolon : skipBlanks (':' :: ' ' :: cs) = ':' :: ' ' :: cs := skipBlanks_cons rfl
  rw [List.append_assoc, quote_append, readKey, skipBlanks_newline, skipBlanks_cons rfl]
  simp [readBody_flatMap_escape, hcolon]

/-! ### The length of a text -/

mutual

/-- A value takes a character or more. -/
theorem length_lt_write (depth : Nat) (j : Json) (tail : List Char) :
    tail.length < (write depth j tail).length := by
  cases j with
  | null =>
    simp only [write, List.length_cons]
    omega
  | bool value =>
    cases value
    all_goals
      simp only [write, List.length_cons]
      omega
  | string s =>
    simp only [write, quote_append, List.length_cons, List.length_append]
    omega
  | array items =>
    cases items with
    | nil =>
      simp only [write, List.length_cons]
      omega
    | cons item items =>
      have hitems := length_le_writeItems (depth + 1) items (newline depth ++ ']' :: tail)
      have hitem := length_lt_write (depth + 1) item
        (writeItems (depth + 1) items (newline depth ++ ']' :: tail))
      simp only [write, List.length_cons, List.length_append] at hitem hitems ⊢
      omega
  | object fields =>
    cases fields with
    | nil =>
      simp only [write, List.length_cons]
      omega
    | cons field fields =>
      obtain ⟨key, value⟩ := field
      have hfields := length_le_writeFields (depth + 1) fields (newline depth ++ '\x7d' :: tail)
      have hvalue := length_lt_write (depth + 1) value
        (writeFields (depth + 1) fields (newline depth ++ '\x7d' :: tail))
      simp only [write, List.length_cons, List.length_append] at hvalue hfields ⊢
      omega
termination_by structural j

theorem length_le_writeItems (depth : Nat) (items : List Json) (tail : List Char) :
    tail.length ≤ (writeItems depth items tail).length := by
  cases items with
  | nil => exact Nat.le_refl _
  | cons item items =>
    have hitems := length_le_writeItems depth items tail
    have hitem := length_lt_write depth item (writeItems depth items tail)
    simp only [writeItems, List.length_cons, List.length_append] at hitem ⊢
    omega
termination_by structural items

theorem length_le_writeFields (depth : Nat) (fields : List (String × Json)) (tail : List Char) :
    tail.length ≤ (writeFields depth fields tail).length := by
  cases fields with
  | nil => exact Nat.le_refl _
  | cons field fields =>
    obtain ⟨key, value⟩ := field
    have hfields := length_le_writeFields depth fields tail
    have hvalue := length_lt_write depth value (writeFields depth fields tail)
    simp only [writeFields, List.length_cons, List.length_append] at hvalue ⊢
    omega
termination_by structural fields

end

/-! ### Values read back -/

/-- `fuel` is enough for the text, and for what is left of it when a value has been read. -/
theorem fuel_behind {j : Json} (h : (write depth j tail).length ≤ fuel) : tail.length ≤ fuel :=
  Nat.le_of_lt (Nat.lt_of_lt_of_le (length_lt_write depth j tail) h)

/-- A value begins with a character of its own, which ends no array. -/
theorem head?_write (depth : Nat) (j : Json) (tail : List Char) :
    (skipBlanks (write depth j tail)).head? ≠ some ']' := by
  have hfirst : ∃ c cs, write depth j tail = c :: cs ∧ isBlank c = false ∧ c ≠ ']' := by
    cases j with
    | null => exact ⟨'n', _, rfl, rfl, by decide⟩
    | bool value =>
      cases value
      · exact ⟨'f', _, rfl, rfl, by decide⟩
      · exact ⟨'t', _, rfl, rfl, by decide⟩
    | string s => exact ⟨'"', _, quote_append s tail, rfl, by decide⟩
    | array items => cases items <;> exact ⟨'[', _, rfl, rfl, by decide⟩
    | object fields => cases fields <;> exact ⟨'\x7b', _, rfl, rfl, by decide⟩
  obtain ⟨c, cs, hwrite, hblank, hne⟩ := hfirst
  rw [hwrite, skipBlanks_cons hblank]
  simpa using hne

theorem head?_key (depth : Nat) (key : String) (cs : List Char) :
    (skipBlanks (newline depth ++ quote key ++ cs)).head? ≠ some '\x7d' := by
  rw [List.append_assoc, skipBlanks_newline, quote_append, skipBlanks_cons rfl]
  simp

mutual

/-- A value is read back, and nothing of what stands behind it. -/
theorem readValue_write (j : Json) (fuel depth : Nat) (tail : List Char)
    (h : (write depth j tail).length ≤ fuel) :
    readValue fuel (write depth j tail) = some (j, tail) := by
  obtain _ | fuel := fuel
  · exact absurd (Nat.lt_of_lt_of_le (length_lt_write depth j tail) h) (Nat.not_lt_zero _)
  cases j with
  | null => rfl
  | bool value => cases value <;> rfl
  | string s =>
    rw [write, quote_append, readValue, skipBlanks_cons rfl]
    simp [readBody_flatMap_escape]
  | array items =>
    cases items with
    | nil => rfl
    | cons item items =>
      rw [write] at h ⊢
      have hitem : (write (depth + 1) item
          (writeItems (depth + 1) items (newline depth ++ ']' :: tail))).length ≤ fuel := by
        rw [List.cons_append, List.length_cons, List.length_append] at h
        omega
      have hread := readValue_write item fuel (depth + 1) _ hitem
      have hmore := readItems_writeItems items fuel (depth + 1) depth tail (fuel_behind hitem)
      rw [List.cons_append, readValue]
      change (if (skipBlanks _).head? = some ']' then _ else _) = _
      rw [skipBlanks_newline, if_neg (head?_write _ _ _), readValue_newline, hread]
      simp [hmore]
  | object fields =>
    cases fields with
    | nil => rfl
    | cons field fields =>
      obtain ⟨key, value⟩ := field
      rw [write] at h ⊢
      have hvalue : (write (depth + 1) value
          (writeFields (depth + 1) fields (newline depth ++ '\x7d' :: tail))).length ≤ fuel := by
        simp only [List.cons_append, List.length_cons, List.length_append] at h
        omega
      have hread := readValue_write value fuel (depth + 1) _ hvalue
      have hmore := readFields_writeFields fields fuel (depth + 1) depth tail (fuel_behind hvalue)
      rw [List.cons_append, List.cons_append, readValue]
      change (if (skipBlanks _).head? = some '\x7d' then _ else _) = _
      rw [if_neg (head?_key _ _ _), readKey_quote]
      simp [readValue_space, hread, hmore]
termination_by structural j

theorem readItems_writeItems (items : List Json) (fuel depth outer : Nat) (tail : List Char)
    (h : (writeItems depth items (newline outer ++ ']' :: tail)).length ≤ fuel) :
    readItems fuel (writeItems depth items (newline outer ++ ']' :: tail)) =
      some (items, tail) := by
  obtain _ | fuel := fuel
  · have hlength := length_le_writeItems depth items (newline outer ++ ']' :: tail)
    rw [List.length_append, List.length_cons] at hlength
    omega
  cases items with
  | nil =>
    rw [writeItems, readItems, skipBlanks_newline]
    rfl
  | cons item items =>
    rw [writeItems] at h ⊢
    have hitem : (write depth item
        (writeItems depth items (newline outer ++ ']' :: tail))).length ≤ fuel := by
      simp only [List.cons_append, List.length_cons, List.length_append] at h
      omega
    have hread := readValue_write item fuel depth _ hitem
    have hmore := readItems_writeItems items fuel depth outer tail (fuel_behind hitem)
    rw [List.cons_append, readItems, skipBlanks_cons rfl]
    simp [readValue_newline, hread, hmore]
termination_by structural items

theorem readFields_writeFields (fields : List (String × Json)) (fuel depth outer : Nat)
    (tail : List Char)
    (h : (writeFields depth fields (newline outer ++ '\x7d' :: tail)).length ≤ fuel) :
    readFields fuel (writeFields depth fields (newline outer ++ '\x7d' :: tail)) =
      some (fields, tail) := by
  obtain _ | fuel := fuel
  · have hlength := length_le_writeFields depth fields (newline outer ++ '\x7d' :: tail)
    rw [List.length_append, List.length_cons] at hlength
    omega
  cases fields with
  | nil =>
    rw [writeFields, readFields, skipBlanks_newline]
    rfl
  | cons field fields =>
    obtain ⟨key, value⟩ := field
    rw [writeFields] at h ⊢
    have hvalue : (write depth value
        (writeFields depth fields (newline outer ++ '\x7d' :: tail))).length ≤ fuel := by
      simp only [List.cons_append, List.length_cons, List.length_append] at h
      omega
    have hread := readValue_write value fuel depth _ hvalue
    have hmore := readFields_writeFields fields fuel depth outer tail (fuel_behind hvalue)
    rw [List.cons_append, List.cons_append, readFields, skipBlanks_cons rfl]
    simp only [readKey_quote]
    simp [readValue_space, hread, hmore]
termination_by structural fields

end

/-- What is printed is read back. -/
theorem read?_pretty (j : Json) : read? j.pretty = some j := by
  have hvalue := readValue_write j (write 0 j []).length 0 [] (Nat.le_refl _)
  rw [read?, pretty, String.toList_ofList, hvalue]
  rfl

end Json
end QueryCanon
