/-
Files rewritten in place.

A file that can be read can be written (`write_of_read`).  After that it holds what was written,
everything else in the store is as it was (`find?_overwrite`), and all names lead where they did
(`resolve_overwrite`).
-/
import QueryCanon.Files.Store

namespace QueryCanon

/-- Names lead through directories only. -/
def Entry.isDirectory : Entry → Bool
  | .directory => true
  | .file _ => false

namespace Store

variable {s s' : Store} {path : Path} {name text : String} {contents : Contents}

/-! ### Entries -/

theorem lookup_put (path : Path) (entry : Entry) (entries : List (Path × Entry)) (p : Path) :
    (put path entry entries).lookup p = if p = path then some entry else entries.lookup p := by
  induction entries with
  | nil =>
    by_cases hp : p = path
    · simp [put, hp]
    · simp [put, hp, List.lookup_cons, beq_eq_false_iff_ne.mpr hp]
  | cons e entries ih =>
    obtain ⟨key, old⟩ := e
    by_cases hkey : key = path
    · subst hkey
      by_cases hp : p = key
      · simp [put, hp]
      · simp [put, hp, List.lookup_cons, beq_eq_false_iff_ne.mpr hp]
    · rw [put, if_neg hkey, List.lookup_cons, List.lookup_cons, ih]
      by_cases hp : p = key
      · subst hp
        simp [hkey]
      · simp [beq_eq_false_iff_ne.mpr hp]

/-- Where there is an entry, none is added. -/
theorem keys_put {entries : List (Path × Entry)} {old : Entry} (entry : Entry)
    (h : entries.lookup path = some old) :
    (put path entry entries).map Prod.fst = entries.map Prod.fst := by
  induction entries with
  | nil => cases h
  | cons e entries ih =>
    obtain ⟨key, first⟩ := e
    by_cases hkey : key = path
    · rw [put, if_pos hkey]
      rfl
    · rw [List.lookup_cons, beq_eq_false_iff_ne.mpr (Ne.symm hkey)] at h
      rw [put, if_neg hkey, List.map_cons, ih h]
      rfl

/-- The store in which the file at `path` holds `text`. -/
def overwrite (s : Store) (path : Path) (text : String) : Store :=
  { s with entries := put path (.file (.text text)) s.entries }

theorem lookup_of_file (h : s.find? path = some (.file contents)) :
    path ≠ [] ∧ s.entries.lookup path = some (.file contents) := by
  unfold find? at h
  split at h
  · cases h
  · next hpath =>
    refine ⟨by simpa using hpath, ?_⟩
    split at h
    · next entry hlookup => rw [hlookup, h]
    · split at h <;> cases h

/-- A file is rewritten, and nothing else. -/
theorem find?_overwrite (h : s.find? path = some (.file contents)) (text : String) (p : Path) :
    (s.overwrite path text).find? p =
      if p = path then some (.file (.text text)) else s.find? p := by
  obtain ⟨hpath, hlookup⟩ := lookup_of_file h
  have hany : ((put path (.file (.text text)) s.entries).any fun e => p.isPrefixOf e.1) =
      s.entries.any fun e => p.isPrefixOf e.1 := by
    have hkeys := congrArg (List.any · p.isPrefixOf) (keys_put (.file (.text text)) hlookup)
    simpa [List.any_map, Function.comp_def] using hkeys
  simp only [find?, overwrite, lookup_put, hany]
  by_cases hp : p = path
  · subst hp
    simp [hpath]
  · simp [hp]

theorem find?_overwrite_ne {old : String} (h : s.find? path = some (.file (.text old)))
    (hne : text ≠ old) : (s.overwrite path text).find? path ≠ s.find? path := by
  rw [find?_overwrite h, if_pos rfl, h]
  simpa using hne

/-! ### Names -/

/-- Only where the directories are matters to where a name leads. -/
theorem walk_congr
    (h : ∀ p, (s'.find? p).map Entry.isDirectory = (s.find? p).map Entry.isDirectory)
    (place : Option Path) (parts : List String) : s'.walk place parts = s.walk place parts := by
  induction parts generalizing place with
  | nil => rfl
  | cons part more ih =>
    cases place with
    | none => simp only [walk, ih]
    | some path =>
      have hpath := h path
      simp only [walk, ih]
      cases hold : s.find? path with
      | none =>
        cases hnew : s'.find? path with
        | none => rfl
        | some entry =>
          rw [hold, hnew] at hpath
          cases hpath
      | some entry =>
        cases hnew : s'.find? path with
        | none =>
          rw [hold, hnew] at hpath
          cases hpath
        | some entry' =>
          rw [hold, hnew] at hpath
          cases entry <;> cases entry' <;> first | rfl | cases hpath

theorem resolve_overwrite (h : s.find? path = some (.file contents)) (text name : String) :
    (s.overwrite path text).resolve name = s.resolve name := by
  have hdirectories : ∀ p, ((s.overwrite path text).find? p).map Entry.isDirectory =
      (s.find? p).map Entry.isDirectory := by
    intro p
    rw [find?_overwrite h]
    by_cases hp : p = path
    · rw [if_pos hp, hp, h]
      rfl
    · rw [if_neg hp]
  simp only [resolve, walk_congr hdirectories]

/-! ### Reading and writing -/

theorem read_eq_ok_iff :
    s.read name = .ok text ↔
      ∃ path, s.resolve name = .ok (some path) ∧ s.find? path = some (.file (.text text)) := by
  unfold read
  cases hresolve : s.resolve name with
  | error fault => simp [bind, Except.bind]
  | ok place =>
    cases place with
    | none => simp [bind, Except.bind]
    | some path =>
      rcases hfind : s.find? path with _ | ⟨_ | _⟩ | _ <;>
        simp [bind, Except.bind, hfind, Contents.text?]

/-- What can be read can be written. -/
theorem write_of_read (hplace : s.resolve name = .ok (some path))
    (h : s.find? path = some (.file contents)) (text : String) :
    s.write name text = .ok (s.overwrite path text) := by
  simp [write, hplace, h, bind, Except.bind, overwrite]

/-- What was written is read. -/
theorem read_overwrite (hplace : s.resolve name = .ok (some path))
    (h : s.find? path = some (.file contents)) (text : String) :
    (s.overwrite path text).read name = .ok text := by
  refine read_eq_ok_iff.mpr ⟨path, ?_, ?_⟩
  · rw [resolve_overwrite h, hplace]
  · rw [find?_overwrite h, if_pos rfl]

end Store
end QueryCanon
