/-
Runs over files.

A run processes its files one after another, each in the store that those before it left
(`Passes`), and the first that fails ends it.  What a file is rewritten to is its own canonical
form or is too deep to be read again, so no file is rewritten twice.  Therefore a run that checks
and a run in place agree on whether there is anything to change (`run_files`).
-/
import QueryCanon.Command.Run
import QueryCanon.Proofs.Canonical.Script
import QueryCanon.Proofs.Command.Process

namespace QueryCanon
namespace Store

/-- A run, and the store that it leaves. -/
def run (s : Store) (o : Options) : Report × Store := (o.run Store.files).run s

/-- The files are processed in order, each in the store that the one before it left, and none
fails.  `out` is what they write to the output. -/
inductive Passes (mode : Mode) : Store → List String → List Verdict → String → Store → Prop
  | nil {s} : Passes mode s [] [] "" s
  | cons {s name verdict names verdicts out after} :
    (s.process mode name).1.result = .ok verdict →
    Passes mode (s.process mode name).2 names verdicts out after →
    Passes mode s (name :: names) (verdict :: verdicts) ((s.process mode name).1.out ++ out) after

/-- The file `name` has a text, and that is not canonical. -/
def NotCanonical (s : Store) (name : String) : Prop :=
  ∃ text, s.read name = .ok text ∧ isCanonical text = .ok false

/-- How a run over files ends: at the first that fails, with no trace of this one and of those
behind it, or with all of them processed. -/
inductive Ends (s : Store) (o : Options) : Prop
  | failed {before name rest verdicts out mid failure} : o.files = before ++ name :: rest →
    Passes o.mode s before verdicts out mid →
    (mid.process o.mode name).1.result = .error failure →
    (s.run o).1.exit = 1 → (s.run o).1.stdout = out → (s.run o).2 = mid → Ends s o
  | passed {verdicts out after} : Passes o.mode s o.files verdicts out after →
    ((s.run o).1.exit = 1 ↔ o.mode = .check ∧ ∃ name ∈ o.files, s.NotCanonical name) →
    ((s.run o).1.exit = 0 ↔ ¬(o.mode = .check ∧ ∃ name ∈ o.files, s.NotCanonical name)) →
    (s.run o).1.stdout = out → (s.run o).2 = after → Ends s o

variable {s after : Store} {mode : Mode} {name text out : String} {names : List String}
  {verdict : Verdict} {verdicts : List Verdict} {failure : Failure} {path : Path}

/-- Either no file fails, or there is a first one that does. -/
theorem passes_or_fails (mode : Mode) (s : Store) (names : List String) :
    (∃ verdicts out after, Passes mode s names verdicts out after) ∨
      ∃ before name rest verdicts out mid failure, names = before ++ name :: rest ∧
        Passes mode s before verdicts out mid ∧
        (mid.process mode name).1.result = .error failure := by
  induction names generalizing s with
  | nil => exact .inl ⟨[], "", s, .nil⟩
  | cons name names ih =>
    cases hresult : (s.process mode name).1.result with
    | error failure => exact .inr ⟨[], name, names, [], "", s, failure, rfl, .nil, hresult⟩
    | ok verdict =>
      rcases ih (s.process mode name).2 with ⟨verdicts, out, after, hpasses⟩ |
        ⟨before, first, rest, verdicts, out, mid, failure, rfl, hpasses, hfails⟩
      · exact .inl ⟨_, _, _, .cons hresult hpasses⟩
      · exact .inr ⟨name :: before, first, rest, _, _, mid, failure, rfl,
          .cons hresult hpasses, hfails⟩

/-! ### Progress -/

/-- How many files a run that checks complains of. -/
def complaints (mode : Mode) (verdicts : List Verdict) : Nat :=
  if mode = .check then verdicts.count .reformatted else 0

theorem complaints_pos_iff :
    0 < complaints mode verdicts ↔ mode = .check ∧ .reformatted ∈ verdicts := by
  unfold complaints
  split
  · next hmode => simp [hmode]
  · next hmode => simp [hmode]

theorem run_through_cons (p : Progress) (name : String) (inputs : List Input) (s : Store) :
    (p.through Store.files mode (.file name :: inputs)).run s =
      if (p.add mode (.file name) (s.process mode name).1).failure.isSome then
        (p.add mode (.file name) (s.process mode name).1, (s.process mode name).2)
      else
        ((p.add mode (.file name) (s.process mode name).1).through Store.files mode inputs).run
          (s.process mode name).2 := by
  rw [Progress.through, StateT.run_bind]
  have hprocess : (Input.process Store.files mode (.file name)).run s = s.process mode name := rfl
  rw [hprocess]
  dsimp only [bind, Id.run]
  split <;> rfl

theorem complaints_cons (mode : Mode) (verdict : Verdict) (verdicts : List Verdict) :
    complaints mode (verdict :: verdicts) =
      complaints mode [verdict] + complaints mode verdicts := by
  unfold complaints
  split
  · rw [← List.count_append, List.singleton_append]
  · rfl

theorem add_ok (mode : Mode) (name : String) (p : Progress) {done : Processed}
    (h : done.result = .ok verdict) :
    (p.add mode (.file name) done).failure = none ∧
      (p.add mode (.file name) done).out = p.out ++ done.out ∧
      (p.add mode (.file name) done).notCanonical = p.notCanonical + complaints mode [verdict] := by
  unfold Progress.add complaints
  rw [h]
  dsimp only
  cases verdict <;> by_cases hmode : mode = .check <;> simp [hmode]

/-- Files that pass are no matter for how the run goes on, but for what they write, for how many
are complained of, and for the store that they leave. -/
theorem run_through_passes (h : Passes mode s names verdicts out after) {p : Progress}
    (hp : p.failure = none) (more : List String) :
    ∃ q : Progress, q.failure = none ∧ q.out = p.out ++ out ∧
      q.notCanonical = p.notCanonical + complaints mode verdicts ∧
      (p.through Store.files mode ((names ++ more).map .file)).run s =
        (q.through Store.files mode (more.map .file)).run after := by
  induction h generalizing p with
  | nil => exact ⟨p, hp, by simp, by simp [complaints], rfl⟩
  | @cons s name verdict names verdicts out after hresult _ ih =>
    obtain ⟨hfailure, hout, hcount⟩ := add_ok mode name p hresult
    obtain ⟨q, hq, hprinted, hnumber, hmore⟩ := ih hfailure
    refine ⟨q, hq, ?_, ?_, ?_⟩
    · rw [hprinted, hout, String.append_assoc]
    · rw [hnumber, hcount, complaints_cons mode verdict verdicts, Nat.add_assoc]
    · rw [List.cons_append, List.map_cons, run_through_cons, hfailure]
      exact hmore

/-! ### Reports -/

theorem run_eq {o : Options} (hfiles : o.files ≠ []) (s : Store) :
    s.run o =
      (((Progress.start.through Store.files o.mode (o.files.map .file)).run s).1.report o.verbose,
        ((Progress.start.through Store.files o.mode (o.files.map .file)).run s).2) := by
  have hinputs : o.inputs = o.files.map .file := by
    simp [Options.inputs, hfiles]
  unfold run Options.run
  rw [hinputs]
  rfl

theorem run_of_passes {o : Options} (hfiles : o.files ≠ [])
    (h : Passes o.mode s o.files verdicts out after) :
    (s.run o).1.stdout = out ∧ (s.run o).2 = after ∧
      (s.run o).1.exit = if complaints o.mode verdicts = 0 then 0 else 1 := by
  obtain ⟨q, hq, hout, hcount, hthrough⟩ := run_through_passes h (p := .start) rfl []
  have hend : (q.through Store.files o.mode (([] : List String).map .file)).run after =
      (q, after) := rfl
  have hstart : Progress.start.out ++ out = out := String.empty_append
  have hzero : Progress.start.notCanonical + complaints o.mode verdicts =
      complaints o.mode verdicts := Nat.zero_add _
  rw [List.append_nil, hend] at hthrough
  rw [hstart] at hout
  rw [hzero] at hcount
  rw [run_eq hfiles, hthrough]
  dsimp only [Progress.report]
  rw [hq, hcount, hout]
  by_cases hnone : complaints o.mode verdicts = 0
  · simp [hnone]
  · simp [hnone]

/-- A file that fails ends the run. -/
theorem run_of_fails {o : Options} {before rest : List String} {mid : Store}
    (hfiles : o.files = before ++ name :: rest) (h : Passes o.mode s before verdicts out mid)
    (hfails : (mid.process o.mode name).1.result = .error failure) :
    (s.run o).1.stdout = out ∧ (s.run o).2 = mid ∧ (s.run o).1.exit = 1 := by
  obtain ⟨q, hq, hout, hcount, hthrough⟩ := run_through_passes h (p := .start) rfl (name :: rest)
  obtain ⟨hsilent, hkept⟩ := (modesAgree mid name).failed _ _ hfails
  have hne : o.files ≠ [] := by simp [hfiles]
  have hstart : Progress.start.out ++ out = out := String.empty_append
  have hadd : q.add o.mode (.file name) (mid.process o.mode name).1 =
      ⟨q.events ++ (mid.process o.mode name).1.events, out, q.notCanonical, some failure⟩ := by
    unfold Progress.add
    rw [hfails, hsilent, hout, hstart, String.append_empty]
  rw [List.map_cons, run_through_cons, hadd, hkept] at hthrough
  rw [run_eq hne, hfiles, hthrough]
  exact ⟨rfl, rfl, rfl⟩

/-! ### Files that stay as they are -/

theorem Passes.kept (h : Passes mode s names verdicts out after) (hmode : mode ≠ .inPlace) :
    after = s := by
  induction h with
  | nil => rfl
  | @cons s name _ _ _ _ _ _ _ ih => rw [ih, (modesAgree s name).kept mode hmode]

theorem notCanonical_iff (hmode : mode ≠ .ast)
    (h : (s.process mode name).1.result = .ok verdict) :
    verdict = .reformatted ↔ s.NotCanonical name := by
  rcases (modesAgree s name).alike with ⟨failure, hfails⟩ |
    ⟨text, v, hread, hcanonical, hverdict, -⟩
  · rw [hfails] at h
    cases h
  · rw [hverdict mode hmode] at h
    cases h
    unfold NotCanonical
    rw [hread]
    constructor
    · rintro rfl
      exact ⟨text, rfl, hcanonical⟩
    · rintro ⟨found, hfound, hnot⟩
      cases hfound
      rw [hcanonical] at hnot
      cases verdict with
      | unchanged => cases hnot
      | reformatted => rfl

/-- A check complains of the files that are not canonical. -/
theorem Passes.complains (h : Passes .check s names verdicts out after) :
    .reformatted ∈ verdicts ↔ ∃ name ∈ names, s.NotCanonical name := by
  induction h with
  | nil => simp
  | @cons s name verdict names verdicts out after hresult _ ih =>
    have hname : .reformatted = verdict ↔ s.NotCanonical name :=
      eq_comm.trans (notCanonical_iff (by decide) hresult)
    rw [(modesAgree s name).kept .check (by decide)] at ih
    simp only [List.mem_cons, exists_eq_or_imp, hname, ih]

theorem kept_of_unchanged (h : (s.process mode name).1.result = .ok .unchanged) :
    (s.process mode name).2 = s := by
  by_cases hmode : mode = .inPlace
  · subst hmode
    cases hscript : s.script name with
    | error failure =>
      obtain ⟨_, hprocess⟩ := process_of_failure hscript .inPlace
      rw [hprocess]
    | ok found =>
      obtain ⟨_, _, hprocess⟩ := process_inPlace hscript
      rw [hprocess] at h
      obtain ⟨_, hkept⟩ := process_unchanged hscript (Except.ok.inj h)
      rw [hkept]
  · exact (modesAgree s name).kept mode hmode

/-- Files that need no change pass in every mode that compares, and stay as they are. -/
theorem Passes.inMode {mode' : Mode} (h : Passes mode s names verdicts out after)
    (hmode : mode ≠ .ast) (hmode' : mode' ≠ .ast) (hverdicts : .reformatted ∉ verdicts) :
    after = s ∧ ∃ out', Passes mode' s names verdicts out' s := by
  induction h with
  | nil => exact ⟨rfl, "", .nil⟩
  | @cons s name verdict names verdicts out after hresult _ ih =>
    obtain ⟨hverdict, hmore⟩ : .reformatted ≠ verdict ∧ .reformatted ∉ verdicts := by
      simpa using hverdicts
    obtain rfl : verdict = .unchanged := by
      cases verdict with
      | unchanged => rfl
      | reformatted => exact absurd rfl hverdict
    have hresult' : (s.process mode' name).1.result = .ok .unchanged := by
      rcases (modesAgree s name).alike with ⟨failure, hfails⟩ | ⟨text, v, -, -, hv, -⟩
      · rw [hfails] at hresult
        cases hresult
      · rw [hv mode hmode] at hresult
        rw [hv mode' hmode', hresult]
    obtain ⟨rfl, out', hpasses⟩ := ih hmore
    rw [kept_of_unchanged hresult] at hpasses ⊢
    refine ⟨rfl, (s.process mode' name).1.out ++ out', .cons hresult' ?_⟩
    rw [kept_of_unchanged hresult']
    exact hpasses

/-! ### Files that are rewritten -/

/-- The file holds a text that is formatted to nothing else. -/
def Settled (s : Store) (path : Path) : Prop :=
  ∃ text, s.find? path = some (.file (.text text)) ∧
    ∀ formatted, format text = .ok formatted → formatted = text

theorem not_isCanonical (h : isCanonical text = .ok false) :
    ∃ formatted, format text = .ok formatted ∧ formatted ≠ text := by
  obtain ⟨formatted, hformat, hother⟩ := exists_of_map_ok h
  refine ⟨formatted, hformat, ?_⟩
  rintro rfl
  have hsame : sameUpToTrailingBlanks formatted formatted = true := beq_self_eq_true _
  rw [hsame] at hother
  cases hother

/-- A settled file is not rewritten, under whatever name. -/
theorem Settled.process (h : s.Settled path) (name : String) :
    (s.process .inPlace name).2.find? path = s.find? path := by
  by_cases hplace : s.resolve name = .ok (some path)
  · refine Classical.byContradiction fun hne => ?_
    obtain ⟨text, hfile, hsettled⟩ := h
    have hresult := (replaces s name).changed.mp ⟨path, hne⟩
    obtain ⟨found, hread, hnot⟩ := (notCanonical_iff (by decide) hresult).mp rfl
    rw [read_eq_ok_iff.mpr ⟨path, hplace, hfile⟩] at hread
    cases hread
    obtain ⟨formatted, hformat, hother⟩ := not_isCanonical hnot
    exact hother (hsettled formatted hformat)
  · exact (replaces s name).elsewhere path hplace

theorem Settled.kept (h : Passes .inPlace s names verdicts out after) (hsettled : s.Settled path) :
    after.find? path = s.find? path := by
  induction h with
  | nil => rfl
  | @cons s name _ _ _ _ _ _ _ ih =>
    have hsame := hsettled.process name
    have hnext : (s.process .inPlace name).2.Settled path := by
      rw [Settled, hsame]
      exact hsettled
    rw [ih hnext, hsame]

/-- A file that is rewritten gets the canonical form of its text. -/
theorem overwrites (h : (s.process .inPlace name).1.result = .ok .reformatted) :
    ∃ path text queries, s.resolve name = .ok (some path) ∧
      s.find? path = some (.file (.text text)) ∧ parseScript text = .ok queries ∧
      render queries ≠ text ∧ (s.process .inPlace name).2 = s.overwrite path (render queries) := by
  cases hscript : s.script name with
  | error failure =>
    obtain ⟨_, hprocess⟩ := process_of_failure hscript .inPlace
    rw [hprocess] at h
    cases h
  | ok found =>
    obtain ⟨text, queries⟩ := found
    obtain ⟨_, _, hinPlace⟩ := process_inPlace hscript
    rw [hinPlace] at h
    have hverdict : Verdict.of text queries = .reformatted := Except.ok.inj h
    obtain ⟨path, _, hplace, hfile, hprocess⟩ := process_reformatted hscript hverdict
    rw [hprocess]
    exact ⟨path, text, queries, hplace, hfile, (script_eq_ok_iff.mp hscript).2,
      Verdict.render_ne hverdict, rfl⟩

theorem settled_overwrite {queries : List Query} (hfile : s.find? path = some (.file (.text text)))
    (hparse : parseScript text = .ok queries) : (s.overwrite path (render queries)).Settled path :=
  ⟨render queries, by rw [find?_overwrite hfile, if_pos rfl],
    fun _ => eq_of_format_render hparse⟩

/-- A file that is rewritten is settled, and is not what it was. -/
theorem settled_of_reformatted (h : (s.process .inPlace name).1.result = .ok .reformatted) :
    ∃ path, (s.process .inPlace name).2.Settled path ∧
      (s.process .inPlace name).2.find? path ≠ s.find? path := by
  obtain ⟨path, _, _, -, hfile, hparse, hne, hafter⟩ := overwrites h
  rw [hafter]
  exact ⟨path, settled_overwrite hfile hparse, find?_overwrite_ne hfile hne⟩

/-- A run in place that leaves all files as they were has rewritten none. -/
theorem Passes.not_reformatted (h : Passes .inPlace s names verdicts out after)
    (hsame : ∀ path, after.find? path = s.find? path) : .reformatted ∉ verdicts := by
  induction h with
  | nil => simp
  | @cons s name verdict names verdicts out after hresult hrest ih =>
    cases verdict with
    | reformatted =>
      obtain ⟨path, hsettled, hne⟩ := settled_of_reformatted hresult
      have hlast := Settled.kept hrest hsettled
      rw [hsame] at hlast
      exact absurd hlast.symm hne
    | unchanged =>
      rw [kept_of_unchanged hresult] at ih
      simpa using ih hsame

/-! ### Runs -/

/-- A run comes to a good end exactly if all files pass and none is complained of. -/
theorem exit_eq_zero_iff {o : Options} (hfiles : o.files ≠ []) (s : Store) :
    (s.run o).1.exit = 0 ↔
      ∃ verdicts out, Passes o.mode s o.files verdicts out (s.run o).2 ∧
        complaints o.mode verdicts = 0 := by
  constructor
  · intro hexit
    rcases passes_or_fails o.mode s o.files with ⟨verdicts, out, after, hpasses⟩ |
      ⟨before, name, rest, verdicts, out, mid, failure, hsplit, hpasses, hfails⟩
    · obtain ⟨-, rfl, hcode⟩ := run_of_passes hfiles hpasses
      refine ⟨verdicts, out, hpasses, Decidable.byContradiction fun hne => ?_⟩
      rw [hcode, if_neg hne] at hexit
      cases hexit
    · obtain ⟨-, -, hcode⟩ := run_of_fails hsplit hpasses hfails
      rw [hcode] at hexit
      cases hexit
  · rintro ⟨verdicts, out, hpasses, hnone⟩
    obtain ⟨-, -, hcode⟩ := run_of_passes hfiles hpasses
    rw [hcode, if_pos hnone]

theorem complains_iff {o : Options} (h : Passes o.mode s o.files verdicts out after) :
    complaints o.mode verdicts ≠ 0 ↔ o.mode = .check ∧ ∃ name ∈ o.files, s.NotCanonical name := by
  rw [← Nat.pos_iff_ne_zero, complaints_pos_iff]
  refine and_congr_right fun hmode => ?_
  rw [hmode] at h
  exact h.complains

theorem ends {o : Options} (hfiles : o.files ≠ []) (s : Store) : Ends s o := by
  rcases passes_or_fails o.mode s o.files with ⟨verdicts, out, after, hpasses⟩ |
    ⟨before, name, rest, verdicts, out, mid, failure, hsplit, hpasses, hfails⟩
  · obtain ⟨hout, hafter, hexit⟩ := run_of_passes hfiles hpasses
    refine .passed hpasses ?_ ?_ hout hafter
    · rw [hexit, ← complains_iff hpasses]
      simp
    · rw [hexit, ← complains_iff hpasses]
      simp
  · obtain ⟨hout, hafter, hexit⟩ := run_of_fails hsplit hpasses hfails
    exact .failed hsplit hpasses hfails hexit hout hafter

theorem store_eq_of_ne_inPlace {o : Options} (hfiles : o.files ≠ []) (s : Store)
    (hmode : o.mode ≠ .inPlace) : (s.run o).2 = s := by
  rcases ends hfiles s with ⟨_, hpasses, _, _, _, hafter⟩ | ⟨hpasses, _, _, _, hafter⟩
  · rw [hafter, hpasses.kept hmode]
  · rw [hafter, hpasses.kept hmode]

/-- A check finds nothing to complain of exactly if a run in place has nothing to change. -/
theorem check_iff_inPlace {o : Options} (hfiles : o.files ≠ []) (s : Store) :
    (s.run { o with mode := .check }).1.exit = 0 ↔
      (s.run { o with mode := .inPlace }).1.exit = 0 ∧
        ∀ path, (s.run { o with mode := .inPlace }).2.find? path = s.find? path := by
  rw [exit_eq_zero_iff (o := { o with mode := .check }) hfiles]
  constructor
  · rintro ⟨verdicts, out, hpasses, hnone⟩
    have hverdicts : .reformatted ∉ verdicts := fun hmem =>
      Nat.ne_of_gt (complaints_pos_iff.mpr ⟨rfl, hmem⟩) hnone
    have hpasses : Passes .check s o.files verdicts out _ := hpasses
    obtain ⟨-, out', hinPlace⟩ := hpasses.inMode nofun (nofun : Mode.inPlace ≠ .ast) hverdicts
    obtain ⟨-, hafter, hexit⟩ := run_of_passes (o := { o with mode := .inPlace }) hfiles hinPlace
    refine ⟨hexit, fun path => ?_⟩
    rw [hafter]
  · rintro ⟨hexit, hsame⟩
    obtain ⟨verdicts, out, hpasses, -⟩ :=
      (exit_eq_zero_iff (o := { o with mode := .inPlace }) hfiles s).mp hexit
    have hverdicts := hpasses.not_reformatted hsame
    have hpasses : Passes .inPlace s o.files verdicts out _ := hpasses
    obtain ⟨-, out', hcheck⟩ := hpasses.inMode nofun (nofun : Mode.check ≠ .ast) hverdicts
    obtain ⟨-, hafter, -⟩ := run_of_passes (o := { o with mode := .check }) hfiles hcheck
    refine ⟨verdicts, out', ?_, ?_⟩
    · rw [hafter]
      exact hcheck
    · simpa [complaints] using List.count_eq_zero.mpr hverdicts

/-- A run over one or more files, in any store.  A file may be named more than once. -/
theorem run_files {o : Options} (hfiles : o.files ≠ []) (s : Store) :
    Ends s o ∧ (o.mode ≠ .inPlace → (s.run o).2 = s) ∧
      ((s.run { o with mode := .check }).1.exit = 0 ↔
        (s.run { o with mode := .inPlace }).1.exit = 0 ∧
          ∀ path, (s.run { o with mode := .inPlace }).2.find? path = s.find? path) :=
  ⟨ends hfiles s, store_eq_of_ne_inPlace hfiles s, check_iff_inPlace hfiles s⟩

/-- Two files, of which one is no text. -/
def mixedStore : Store :=
  ⟨[(["a"], .file (.text "select x")), (["b"], .file (.binary [0xff]))], .text ""⟩

/-- The one that is a text is named twice, and once more behind the other. -/
def mixedRun : Options := ⟨["a", "./a", "b", "a"], .inPlace, false⟩

theorem run_files_mixed :
    mixedRun.files ≠ [] ∧ (mixedStore.run mixedRun).1.exit = 1 ∧
      (mixedStore.run mixedRun).2.read "a" = .ok "SELECT x\n" ∧
      Ends mixedStore mixedRun ∧
      (mixedRun.mode ≠ .inPlace → (mixedStore.run mixedRun).2 = mixedStore) ∧
      ((mixedStore.run { mixedRun with mode := .check }).1.exit = 0 ↔
        (mixedStore.run { mixedRun with mode := .inPlace }).1.exit = 0 ∧
          ∀ path, (mixedStore.run { mixedRun with mode := .inPlace }).2.find? path =
            mixedStore.find? path) := by
  have hexit : (mixedStore.run mixedRun).1.exit = 1 := by decide +kernel
  have hread : (mixedStore.run mixedRun).2.read "a" = .ok "SELECT x\n" :=
    ok_of_toOption (by decide +kernel)
  exact ⟨by decide, hexit, hread, run_files (by decide) mixedStore⟩

end Store
end QueryCanon
