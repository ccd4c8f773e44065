/-
One file in all modes.

Whether a file can be processed, and whether it has its canonical form, is settled before its mode
comes into it (`Store.script`).  So the modes fail together and say the same of a file, and only
`Mode.inPlace` changes one (`process_file`).
-/
import QueryCanon.Command.Process
import QueryCanon.Proofs.Files.Store

namespace QueryCanon

/-- Whether a text with these queries has its canonical form. -/
def Verdict.of (text : String) (queries : List Query) : Verdict :=
  if sameUpToTrailingBlanks (render queries) text then .unchanged else .reformatted

namespace Store

variable {s : Store} {mode : Mode} {name text : String} {queries : List Query} {path : Path}
  {fault : FileFault} {failure : Failure}

/-- Processing of the file `name`, and the store that it leaves. -/
def process (s : Store) (mode : Mode) (name : String) : Processed × Store :=
  (Input.process Store.files mode (.file name)).run s

/-- The text of a file and its queries, or why it cannot be processed. -/
def script (s : Store) (name : String) : Except Failure (String × List Query) :=
  match s.read name with
  | .error fault => .error (.file name fault)
  | .ok text =>
    match parseScript text with
    | .error e => .error (.unparsable name e)
    | .ok queries => .ok (text, queries)

theorem script_eq_ok_iff :
    s.script name = .ok (text, queries) ↔
      s.read name = .ok text ∧ parseScript text = .ok queries := by
  unfold script
  constructor
  · intro h
    cases hread : s.read name with
    | error fault =>
      rw [hread] at h
      cases h
    | ok found =>
      rw [hread] at h
      dsimp only at h
      cases hparse : parseScript found with
      | error e =>
        rw [hparse] at h
        cases h
      | ok qs =>
        rw [hparse] at h
        cases h
        exact ⟨rfl, hparse⟩
  · rintro ⟨hread, hparse⟩
    rw [hread]
    dsimp only
    rw [hparse]

/-! ### What each mode comes to -/

theorem run_read (s : Store) (name : String) :
    ((Input.file name).read Store.files).run s = (s.read name, s) := rfl

theorem run_write {after : Store} (h : s.write name text = .ok after) :
    (Store.files.write name text).run s = (.ok (), after) := by
  simp only [files, StateT.run_bind, StateT.run_get, pure_bind, h]
  rfl

/-- A file that can be read is processed by its text alone. -/
theorem run_process (h : s.read name = .ok text) (mode : Mode) :
    ∃ events, s.process mode name =
      if mode = .ast then
        match astText text name with
        | .error failure => (⟨events, "", .error failure⟩, s)
        | .ok tree => (⟨events, tree ++ "\n", .ok .unchanged⟩, s)
      else
        match format text with
        | .error e => (⟨events, "", .error (.unparsable name e)⟩, s)
        | .ok formatted =>
          ((Input.file name).finish Store.files mode events text formatted).run s := by
  unfold process Input.process
  rw [StateT.run_bind, run_read, h]
  refine ⟨.read name text.utf8ByteSize :: parseEvents text, ?_⟩
  dsimp only [bind, Id.run, Input.name]
  split
  · cases astText text name <;> rfl
  · cases format text <;> rfl

/-- A failure is the same in all modes, and leaves no trace. -/
theorem process_of_failure (h : s.script name = .error failure) (mode : Mode) :
    ∃ events, s.process mode name = (⟨events, "", .error failure⟩, s) := by
  unfold script at h
  cases hread : s.read name with
  | error fault =>
    rw [hread] at h
    cases h
    unfold process Input.process
    rw [StateT.run_bind, run_read, hread]
    exact ⟨_, rfl⟩
  | ok text =>
    rw [hread] at h
    dsimp only at h
    cases hparse : parseScript text with
    | error e =>
      rw [hparse] at h
      cases h
      obtain ⟨events, hprocess⟩ := run_process hread mode
      rw [astText_error hparse, format_eq, hparse] at hprocess
      exact ⟨events, hprocess.trans (ite_self _)⟩
    | ok queries =>
      rw [hparse] at h
      cases h

/-- In the modes that compare, what is done is done with the canonical form. -/
theorem process_eq_finish (h : s.script name = .ok (text, queries)) (hmode : mode ≠ .ast) :
    ∃ events, s.process mode name =
      ((Input.file name).finish Store.files mode events text (render queries)).run s := by
  obtain ⟨hread, hparse⟩ := script_eq_ok_iff.mp h
  obtain ⟨events, hprocess⟩ := run_process hread mode
  rw [if_neg hmode, format_eq, hparse] at hprocess
  exact ⟨events, hprocess⟩

theorem process_print (h : s.script name = .ok (text, queries)) :
    ∃ events, s.process .print name = (⟨events, render queries, .ok (.of text queries)⟩, s) := by
  obtain ⟨events, hprocess⟩ := process_eq_finish h (nofun : Mode.print ≠ .ast)
  exact ⟨events, hprocess⟩

theorem process_check (h : s.script name = .ok (text, queries)) :
    ∃ events, s.process .check name = (⟨events, "", .ok (.of text queries)⟩, s) := by
  obtain ⟨events, hprocess⟩ := process_eq_finish h (nofun : Mode.check ≠ .ast)
  exact ⟨events, hprocess⟩

theorem process_ast (h : s.script name = .ok (text, queries)) :
    ∃ events, s.process .ast name =
      (⟨events, (scriptJson queries).pretty ++ "\n", .ok .unchanged⟩, s) := by
  obtain ⟨hread, hparse⟩ := script_eq_ok_iff.mp h
  obtain ⟨events, hprocess⟩ := run_process hread .ast
  rw [if_pos rfl, astText_eq hparse] at hprocess
  exact ⟨events, hprocess⟩

theorem process_unchanged (h : s.script name = .ok (text, queries))
    (hverdict : Verdict.of text queries = .unchanged) :
    ∃ events, s.process .inPlace name = (⟨events, "", .ok .unchanged⟩, s) := by
  obtain ⟨events, hprocess⟩ := process_eq_finish h (nofun : Mode.inPlace ≠ .ast)
  have hfinish : (Input.file name).finish Store.files .inPlace events text (render queries) =
      (Input.file name).replace Store.files events (render queries) (.of text queries) := rfl
  rw [hfinish, hverdict] at hprocess
  exact ⟨events, hprocess⟩

/-- Where the canonical form is another, it is put in place of the text. -/
theorem process_reformatted (h : s.script name = .ok (text, queries))
    (hverdict : Verdict.of text queries = .reformatted) :
    ∃ path events, s.resolve name = .ok (some path) ∧ s.find? path = some (.file (.text text)) ∧
      s.process .inPlace name =
        (⟨events, "", .ok .reformatted⟩, s.overwrite path (render queries)) := by
  obtain ⟨path, hplace, hfile⟩ := read_eq_ok_iff.mp (script_eq_ok_iff.mp h).1
  obtain ⟨events, hprocess⟩ := process_eq_finish h (nofun : Mode.inPlace ≠ .ast)
  have hfinish : (Input.file name).finish Store.files .inPlace events text (render queries) =
      (Input.file name).replace Store.files events (render queries) (.of text queries) := rfl
  rw [hfinish, hverdict] at hprocess
  unfold Input.replace at hprocess
  rw [StateT.run_bind, run_write (write_of_read hplace hfile _)] at hprocess
  exact ⟨path, _, hplace, hfile, hprocess⟩

/-! ### All modes -/

theorem Verdict.of_eq_unchanged : Verdict.of text queries = .unchanged ↔
    sameUpToTrailingBlanks (render queries) text = true := by
  unfold Verdict.of
  split <;> simp_all

theorem Verdict.render_ne (h : Verdict.of text queries = .reformatted) : render queries ≠ text := by
  rintro rfl
  have hsame : Verdict.of (render queries) queries = .unchanged :=
    Verdict.of_eq_unchanged.mpr (beq_self_eq_true _)
  rw [hsame] at h
  cases h

theorem isCanonical_of_parseScript (h : parseScript text = .ok queries) :
    isCanonical text = .ok (decide (Verdict.of text queries = .unchanged)) := by
  have hverdict : decide (Verdict.of text queries = .unchanged) =
      sameUpToTrailingBlanks (render queries) text := by
    rw [Bool.eq_iff_iff, decide_eq_true_iff, Verdict.of_eq_unchanged]
  rw [hverdict, isCanonical_eq, format_eq, h]
  rfl

/-- All modes fail at a file, and for one reason, or all succeed, and those that compare say whether
its text is canonical.  Only `Mode.inPlace` may leave another store. -/
structure ModesAgree (s : Store) (name : String) : Prop where
  alike : (∃ failure, ∀ mode, (s.process mode name).1.result = .error failure) ∨
    ∃ text verdict, s.read name = .ok text ∧
      isCanonical text = .ok (decide (verdict = .unchanged)) ∧
      (∀ mode, mode ≠ .ast → (s.process mode name).1.result = .ok verdict) ∧
      (s.process .ast name).1.result = .ok .unchanged
  failed : ∀ mode failure, (s.process mode name).1.result = .error failure →
    (s.process mode name).1.out = "" ∧ (s.process mode name).2 = s
  kept : ∀ mode, mode ≠ .inPlace → (s.process mode name).2 = s
  silent : ∀ mode, mode = .check ∨ mode = .inPlace → (s.process mode name).1.out = ""

/-- Processed in its place, a file becomes another exactly if its canonical form is another, and
then it holds what would have been printed.  No other file changes. -/
structure Replaces (s : Store) (name : String) : Prop where
  elsewhere : ∀ path, s.resolve name ≠ .ok (some path) →
    (s.process .inPlace name).2.find? path = s.find? path
  changed : (∃ path, (s.process .inPlace name).2.find? path ≠ s.find? path) ↔
    (s.process .inPlace name).1.result = .ok .reformatted
  reformatted : (s.process .inPlace name).1.result = .ok .reformatted →
    (s.process .inPlace name).2.read name = .ok (s.process .print name).1.out
  unchanged : (s.process .inPlace name).1.result = .ok .unchanged →
    ∃ text, (s.process .inPlace name).2.read name = .ok text ∧
      sameUpToTrailingBlanks (s.process .print name).1.out text = true

theorem modesAgree_of_failure (h : s.script name = .error failure) : ModesAgree s name := by
  have hprocess : ∀ mode, (s.process mode name).1.result = .error failure ∧
      (s.process mode name).1.out = "" ∧ (s.process mode name).2 = s := by
    intro mode
    obtain ⟨events, hprocess⟩ := process_of_failure h mode
    rw [hprocess]
    exact ⟨rfl, rfl, rfl⟩
  exact ⟨.inl ⟨failure, fun mode => (hprocess mode).1⟩, fun mode _ _ => (hprocess mode).2,
    fun mode _ => (hprocess mode).2.2, fun mode _ => (hprocess mode).2.1⟩

theorem process_inPlace (h : s.script name = .ok (text, queries)) :
    ∃ events after, s.process .inPlace name = (⟨events, "", .ok (.of text queries)⟩, after) := by
  cases hverdict : Verdict.of text queries with
  | unchanged =>
    obtain ⟨events, hprocess⟩ := process_unchanged h hverdict
    exact ⟨events, s, hprocess⟩
  | reformatted =>
    obtain ⟨path, events, -, -, hprocess⟩ := process_reformatted h hverdict
    exact ⟨events, _, hprocess⟩

theorem modesAgree_of_script (h : s.script name = .ok (text, queries)) : ModesAgree s name := by
  obtain ⟨hread, hparse⟩ := script_eq_ok_iff.mp h
  obtain ⟨_, hprint⟩ := process_print h
  obtain ⟨_, hcheck⟩ := process_check h
  obtain ⟨_, hast⟩ := process_ast h
  obtain ⟨_, _, hinPlace⟩ := process_inPlace h
  have hverdict : ∀ mode, mode ≠ .ast →
      (s.process mode name).1.result = .ok (.of text queries) := by
    intro mode hmode
    cases mode with
    | print => rw [hprint]
    | check => rw [hcheck]
    | ast => exact absurd rfl hmode
    | inPlace => rw [hinPlace]
  have htree : (s.process .ast name).1.result = .ok .unchanged := by rw [hast]
  refine ⟨.inr ⟨text, _, hread, isCanonical_of_parseScript hparse, hverdict, htree⟩, ?_, ?_, ?_⟩
  · intro mode failure hfailure
    by_cases hmode : mode = .ast
    · rw [hmode, htree] at hfailure
      cases hfailure
    · rw [hverdict mode hmode] at hfailure
      cases hfailure
  · intro mode hmode
    cases mode with
    | print => rw [hprint]
    | check => rw [hcheck]
    | ast => rw [hast]
    | inPlace => exact absurd rfl hmode
  · rintro mode (rfl | rfl)
    · rw [hcheck]
    · rw [hinPlace]

theorem replaces_of_failure (h : s.script name = .error failure) : Replaces s name := by
  obtain ⟨events, hprocess⟩ := process_of_failure h .inPlace
  refine ⟨fun path _ => by rw [hprocess], ?_, ?_, ?_⟩ <;> simp [hprocess]

theorem replaces_of_unchanged (h : s.script name = .ok (text, queries))
    (hverdict : Verdict.of text queries = .unchanged) : Replaces s name := by
  obtain ⟨_, hprint⟩ := process_print h
  obtain ⟨_, hprocess⟩ := process_unchanged h hverdict
  have hsame := Verdict.of_eq_unchanged.mp hverdict
  refine ⟨fun path _ => by rw [hprocess], by simp [hprocess], by simp [hprocess], fun _ => ?_⟩
  rw [hprocess, hprint]
  exact ⟨text, (script_eq_ok_iff.mp h).1, hsame⟩

theorem replaces_of_reformatted (h : s.script name = .ok (text, queries))
    (hverdict : Verdict.of text queries = .reformatted) : Replaces s name := by
  obtain ⟨_, hprint⟩ := process_print h
  obtain ⟨path, _, hplace, hfile, hprocess⟩ := process_reformatted h hverdict
  have hchanged := find?_overwrite_ne hfile (Verdict.render_ne hverdict)
  refine ⟨fun p hp => ?_, ?_, fun _ => ?_, by simp [hprocess]⟩
  · have hne : p ≠ path := fun heq => hp (heq ▸ hplace)
    rw [hprocess, find?_overwrite hfile, if_neg hne]
  · rw [hprocess]
    exact ⟨fun _ => rfl, fun _ => ⟨path, hchanged⟩⟩
  · rw [hprocess, hprint]
    exact read_overwrite hplace hfile _

theorem modesAgree (s : Store) (name : String) : ModesAgree s name := by
  cases h : s.script name with
  | error failure => exact modesAgree_of_failure h
  | ok found => exact modesAgree_of_script h

theorem replaces (s : Store) (name : String) : Replaces s name := by
  cases h : s.script name with
  | error failure => exact replaces_of_failure h
  | ok found =>
    cases hverdict : Verdict.of found.1 found.2 with
    | unchanged => exact replaces_of_unchanged h hverdict
    | reformatted => exact replaces_of_reformatted h hverdict

/-- Processing a file, whatever it is and in whatever store. -/
theorem process_file (s : Store) (name : String) : ModesAgree s name ∧ Replaces s name :=
  ⟨modesAgree s name, replaces s name⟩

end Store
end QueryCanon
