/-
The command as it is called, with its arguments and the setting for `--check`.

Arguments that come to no options end the command before it looks at a file, and with an exit code
of their own if they are wrong (`exit_eq_two_iff`).  All others begin a run, which ends as runs over
files do (`command_ends`), and what it changes is a file that it was given to rewrite, from a text
to the canonical form of that text (`command_rewrites`).
-/
import QueryCanon.Proofs.Command.Arguments
import QueryCanon.Proofs.Command.Run

namespace QueryCanon
namespace Store

variable {s after : Store} {arguments files names : List String} {flags : List Flag}
  {setting : Option String} {mode : Mode} {o : Options} {stop : Stop} {path : Path}
  {verdicts : List Verdict} {name out : String}

/-- The command, and the store that it leaves. -/
def command (s : Store) (arguments : List String) (setting : Option String) : Report × Store :=
  (Command.run Store.files arguments setting).run s

theorem command_of_ok (h : Options.parse arguments setting = .ok o) (s : Store) :
    s.command arguments setting = s.run o := by
  unfold command Command.run
  rw [h]
  rfl

theorem command_of_error (h : Options.parse arguments setting = .error stop) (s : Store) :
    s.command arguments setting = (Command.stopReport stop, s) := by
  unfold command Command.run
  rw [h]
  rfl

/-! ### Exit codes -/

theorem report_exit_le (verbose : Bool) (p : Progress) : (p.report verbose).exit ≤ 1 := by
  unfold Progress.report
  split
  · exact Nat.le_refl 1
  · split
    · exact Nat.zero_le 1
    · exact Nat.le_refl 1

theorem run_exit_le (s : Store) (o : Options) : (s.run o).1.exit ≤ 1 :=
  report_exit_le o.verbose _

/-- Wrong arguments, and nothing else, end the command with exit code 2. -/
theorem exit_eq_two_iff (s : Store) :
    (s.command arguments setting).1.exit = 2 ↔
      ∃ e, Options.parse arguments setting = .error (.usage e) := by
  cases hparse : Options.parse arguments setting with
  | ok o =>
    have hexit := run_exit_le s o
    rw [command_of_ok hparse]
    refine ⟨fun h => ?_, nofun⟩
    rw [h] at hexit
    exact absurd hexit (by decide)
  | error stop =>
    rw [command_of_error hparse]
    cases stop with
    | usage e => exact ⟨fun _ => ⟨e, rfl⟩, fun _ => rfl⟩
    | help => exact ⟨nofun, nofun⟩
    | version => exact ⟨nofun, nofun⟩

/-! ### What is changed -/

/-- The standard input has no place to write to. -/
theorem process_stdin_kept (mode : Mode) (s : Store) :
    ((Input.process Store.files mode .stdin).run s).2 = s := by
  have hread : (Input.stdin.read Store.files).run s = (Contents.text? s.input, s) := rfl
  unfold Input.process
  rw [StateT.run_bind, hread]
  dsimp only [bind, Id.run]
  cases Contents.text? s.input with
  | error fault => rfl
  | ok text =>
    dsimp only
    split
    · cases astText text Input.stdin.name <;> rfl
    · cases format text with
      | error e => rfl
      | ok formatted => cases mode <;> rfl

theorem run_stdin_kept (hfiles : o.files = []) (s : Store) : (s.run o).2 = s := by
  have hinputs : o.inputs = [.stdin] := by simp [Options.inputs, hfiles]
  have hstart : (s.run o).2 = ((Progress.start.through Store.files o.mode [.stdin]).run s).2 := by
    unfold run Options.run
    rw [hinputs]
    rfl
  rw [hstart, Progress.through, StateT.run_bind]
  dsimp only [bind, Id.run]
  split <;> exact process_stdin_kept o.mode s

/-- All names lead where they did. -/
theorem resolve_process (s : Store) (name other : String) :
    (s.process .inPlace name).2.resolve other = s.resolve other := by
  rcases (modesAgree s name).alike with ⟨failure, hfails⟩ | ⟨text, verdict, -, -, hverdict, -⟩
  · rw [((modesAgree s name).failed .inPlace failure (hfails .inPlace)).2]
  · have hresult := hverdict .inPlace nofun
    cases verdict with
    | unchanged => rw [kept_of_unchanged hresult]
    | reformatted =>
      obtain ⟨path, _, queries, -, hfile, -, -, hafter⟩ := overwrites hresult
      rw [hafter, resolve_overwrite hfile]

/-- The file at `path` held a text with another canonical form, and holds that form. -/
def Rewritten (s after : Store) (path : Path) : Prop :=
  ∃ text formatted, s.find? path = some (.file (.text text)) ∧ format text = .ok formatted ∧
    formatted ≠ text ∧ after.find? path = some (.file (.text formatted))

theorem Passes.rewrites (h : Passes .inPlace s names verdicts out after)
    (hne : after.find? path ≠ s.find? path) :
    (∃ name ∈ names, s.resolve name = .ok (some path)) ∧ s.Rewritten after path := by
  induction h with
  | nil => exact absurd rfl hne
  | @cons s name verdict names verdicts out after hresult hrest ih =>
    have hlater : (s.process .inPlace name).2.find? path = s.find? path →
        (∃ other ∈ name :: names, s.resolve other = .ok (some path)) ∧ s.Rewritten after path := by
      intro hsame
      obtain ⟨⟨other, hmem, hplace⟩, hrewritten⟩ := ih (by rwa [hsame])
      rw [resolve_process] at hplace
      rw [Rewritten, hsame] at hrewritten
      exact ⟨⟨other, List.mem_cons_of_mem name hmem, hplace⟩, hrewritten⟩
    cases verdict with
    | unchanged => exact hlater (by rw [kept_of_unchanged hresult])
    | reformatted =>
      obtain ⟨place, text, queries, hplace, hfile, hparse, hother, hafter⟩ := overwrites hresult
      by_cases hpath : path = place
      · subst hpath
        have hsettled := settled_overwrite hfile hparse
        rw [← hafter] at hsettled
        have hlast := Settled.kept hrest hsettled
        rw [hafter, find?_overwrite hfile, if_pos rfl] at hlast
        have hformat : format text = .ok (render queries) := by
          rw [format_eq, hparse]
          rfl
        exact ⟨⟨name, List.mem_cons_self, hplace⟩, text, render queries, hfile, hformat, hother,
          hlast⟩
      · exact hlater (by rw [hafter, find?_overwrite hfile, if_neg hpath])

theorem run_rewrites (hne : (s.run o).2.find? path ≠ s.find? path) :
    o.mode = .inPlace ∧ (∃ name ∈ o.files, s.resolve name = .ok (some path)) ∧
      s.Rewritten (s.run o).2 path := by
  have hfiles : o.files ≠ [] := fun hempty => hne (by rw [run_stdin_kept hempty])
  have hmode : o.mode = .inPlace := Decidable.byContradiction fun hother =>
    hne (by rw [store_eq_of_ne_inPlace hfiles s hother])
  refine ⟨hmode, ?_⟩
  rcases ends hfiles s with ⟨hsplit, hpasses, -, -, -, hafter⟩ | ⟨hpasses, -, -, -, hafter⟩
  · rw [hmode] at hpasses
    rw [hafter] at hne ⊢
    obtain ⟨⟨name, hmem, hplace⟩, hrewritten⟩ := hpasses.rewrites hne
    exact ⟨⟨name, by rw [hsplit]; exact List.mem_append_left _ hmem, hplace⟩, hrewritten⟩
  · rw [hmode] at hpasses
    rw [hafter] at hne ⊢
    exact hpasses.rewrites hne

/-- The command changes a file only if `--in-place` is given with a name that leads to it. -/
theorem command_rewrites (hne : (s.command arguments setting).2.find? path ≠ s.find? path) :
    ∃ flags files, Arguments.Reads arguments flags files ∧ .inPlace ∈ flags ∧
      (∃ name ∈ files, s.resolve name = .ok (some path)) ∧
      s.Rewritten (s.command arguments setting).2 path := by
  cases hparse : Options.parse arguments setting with
  | error stop =>
    rw [command_of_error hparse] at hne
    exact absurd rfl hne
  | ok o =>
    rw [command_of_ok hparse] at hne ⊢
    obtain ⟨hmode, hplace, hrewritten⟩ := run_rewrites hne
    obtain ⟨flags, hreads, -, hasks, -⟩ := Options.parse_ok_iff.mp hparse
    rw [hmode] at hasks
    cases hasks with
    | inPlace hflag => exact ⟨flags, o.files, hreads, hflag, hplace, hrewritten⟩

/-! ### Runs over files -/

theorem command_eq_run (hreads : Arguments.Reads arguments flags files) (hnodup : flags.Nodup)
    (hasks : Asks flags setting mode) (hfiles : files ≠ []) (s : Store) :
    s.command arguments setting = s.run ⟨files, mode, decide (.verbose ∈ flags)⟩ :=
  command_of_ok (Options.parse_ok_iff.mpr ⟨flags, hreads, hnodup, hasks, fun _ => hfiles, rfl⟩) s

/-- The command goes through the files that it is given in the mode that its flags ask for. -/
theorem command_ends (hreads : Arguments.Reads arguments flags files) (hnodup : flags.Nodup)
    (hasks : Asks flags setting mode) (hfiles : files ≠ []) (s : Store) :
    s.command arguments setting = s.run ⟨files, mode, decide (.verbose ∈ flags)⟩ ∧
      Ends s ⟨files, mode, decide (.verbose ∈ flags)⟩ :=
  ⟨command_eq_run hreads hnodup hasks hfiles s, ends hfiles s⟩

/-- A further flag in front, as long as it does not change what is reported. -/
theorem command_cons_eq_run {argument : String} {flag : Flag}
    (hgives : Arguments.Gives argument [flag] []) (hargument : argument ≠ "--")
    (hflag : flag ≠ .verbose) (hreads : Arguments.Reads arguments flags files)
    (hnodup : (flag :: flags).Nodup) (hasks : Asks (flag :: flags) setting mode)
    (hfiles : files ≠ []) (s : Store) :
    s.command (argument :: arguments) setting = s.run ⟨files, mode, decide (.verbose ∈ flags)⟩ := by
  have hall : Arguments.Reads (argument :: arguments) (flag :: flags) files :=
    .argument hargument hgives hreads
  have hverbose : decide (.verbose ∈ flag :: flags) = decide (.verbose ∈ flags) := by
    simp [Ne.symm hflag]
  rw [command_eq_run hall hnodup hasks hfiles, hverbose]

/-- With `--check` before arguments that name files and no mode, the command comes to a good end
exactly if with `--in-place` it does so too and changes nothing. -/
theorem command_check_iff_inPlace (hreads : Arguments.Reads arguments flags files)
    (hnodup : flags.Nodup) (hasks : Asks flags none .print) (hfiles : files ≠ []) (s : Store) :
    (s.command ("--check" :: arguments) none).1.exit = 0 ↔
      (s.command ("--in-place" :: arguments) none).1.exit = 0 ∧
        ∀ path, (s.command ("--in-place" :: arguments) none).2.find? path = s.find? path := by
  cases hasks with
  | print hcheck hast hinPlace =>
    have hchecks : Asks (.check :: flags) none .check :=
      .check (.inl List.mem_cons_self) (by simpa using hast) (by simpa using hinPlace)
    have hreplaces : Asks (.inPlace :: flags) none .inPlace :=
      .inPlace List.mem_cons_self (by simpa using hcheck) (by simpa using hast) rfl
    rw [command_cons_eq_run (.long rfl) (by decide) (by decide) hreads
        (List.nodup_cons.mpr ⟨hcheck, hnodup⟩) hchecks hfiles,
      command_cons_eq_run (.long rfl) (by decide) (by decide) hreads
        (List.nodup_cons.mpr ⟨hinPlace, hnodup⟩) hreplaces hfiles]
    simpa only using check_iff_inPlace (o := ⟨files, .print, decide (.verbose ∈ flags)⟩) hfiles s

end Store
end QueryCanon
