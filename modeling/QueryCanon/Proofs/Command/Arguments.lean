/-
What the arguments of the command ask for.

An argument in front of `--` gives flags or a file, and those behind it are files
(`Arguments.Reads`).  The flags are taken one by one, each only once, so what is read so far is
known by the flags and the files that it was read from, and the arguments are accepted exactly if no
flag is given twice and the flags agree on a mode (`Options.parse_ok_iff`).
-/
import QueryCanon.Command.Run

namespace QueryCanon

variable {a b : Arguments} {flag : Flag} {flags flags' : List Flag} {files files' : List String}
  {name argument : String} {arguments : List String} {setting : Option String} {mode : Mode}

theorem bind_eq_ok {ε α β : Type} {x : Except ε α} {f : α → Except ε β} {b : β} :
    x >>= f = .ok b ↔ ∃ a, x = .ok a ∧ f a = .ok b := by
  cases x with
  | error e => exact ⟨nofun, nofun⟩
  | ok a => exact ⟨fun h => ⟨a, rfl, h⟩, fun ⟨_, ha, h⟩ => by cases ha; exact h⟩

/-! ### Flags and files -/

namespace Arguments

/-- What an argument in front of `--` gives: a file, or the flags that it names. -/
inductive Gives : String → List Flag → List String → Prop
  | file {argument : String} :
    argument ≠ "" → (argument.toList.head? = some '-' → argument.toList = ['-']) →
    Gives argument [] [argument]
  | long {argument : String} {flag : Flag} :
    argument.toList = '-' :: '-' :: flag.name.toList → Gives argument [flag] []
  | letters {argument : String} {letters : List Char} {flags : List Flag} :
    argument.toList = '-' :: letters → letters ≠ [] →
    letters.map Switch.ofLetter? = flags.map (some ∘ .flag) → Gives argument flags []

/-- What arguments give. -/
inductive Reads : List String → List Flag → List String → Prop
  | nil : Reads [] [] []
  | files {names : List String} : (∀ name ∈ names, name ≠ "") → Reads ("--" :: names) [] names
  | argument {argument : String} {more : List String} {flags flags' : List Flag}
      {files files' : List String} :
    argument ≠ "--" → Gives argument flags files → Reads more flags' files' →
    Reads (argument :: more) (flags ++ flags') (files ++ files')

/-- The arguments with further flags and files. -/
def further (a : Arguments) (flags : List Flag) (files : List String) : Arguments :=
  ⟨a.files ++ files, flags.reverse ++ a.flags⟩

theorem further_further (a : Arguments) (flags flags' : List Flag) (files files' : List String) :
    (a.further flags files).further flags' files' =
      a.further (flags ++ flags') (files ++ files') := by
  simp [further]

theorem further_nil (a : Arguments) : a.further [] [] = a := by
  simp [further]

theorem nodup_of_further (h : (a.further flags files).flags.Nodup) : a.flags.Nodup :=
  h.sublist (List.sublist_append_right _ _)

theorem raise_ok_iff (ha : a.flags.Nodup) {switch : Switch} :
    a.raise switch = .ok b ↔
      ∃ flag, switch = .flag flag ∧ b = a.further [flag] [] ∧ b.flags.Nodup := by
  cases switch with
  | help => simp [raise]
  | version => simp [raise]
  | flag flag =>
    by_cases hmem : flag ∈ a.flags
    · simp only [raise, if_pos hmem]
      refine ⟨nofun, ?_⟩
      rintro ⟨_, ⟨⟩, rfl, hnodup⟩
      exact absurd hmem (List.nodup_cons.mp hnodup).1
    · simp only [raise, if_neg hmem]
      constructor
      · rintro ⟨⟩
        exact ⟨flag, rfl, by simp [further], List.nodup_cons.mpr ⟨hmem, ha⟩⟩
      · rintro ⟨_, ⟨⟩, rfl, -⟩
        simp [further]

theorem addFile_ok_iff : a.addFile name = .ok b ↔ name ≠ "" ∧ b = a.further [] [name] := by
  unfold addFile
  by_cases hname : name = ""
  · subst hname
    exact ⟨nofun, fun h => absurd rfl h.1⟩
  · rw [if_neg (by simpa using hname)]
    exact ⟨fun h => ⟨hname, (Except.ok.inj h).symm⟩, fun h => congrArg Except.ok h.2.symm⟩

theorem addFiles_ok_iff {names : List String} :
    names.foldlM addFile a = .ok b ↔ (∀ name ∈ names, name ≠ "") ∧ b = a.further [] names := by
  induction names generalizing a with
  | nil =>
    rw [further_nil, List.foldlM_nil]
    exact ⟨fun h => ⟨nofun, (Except.ok.inj h).symm⟩, fun ⟨_, h⟩ => congrArg Except.ok h.symm⟩
  | cons name names ih =>
    rw [List.foldlM_cons, bind_eq_ok, List.forall_mem_cons]
    simp only [addFile_ok_iff, ih]
    constructor
    · rintro ⟨_, ⟨hname, rfl⟩, hnames, rfl⟩
      exact ⟨⟨hname, hnames⟩, further_further a [] [] [name] names⟩
    · rintro ⟨⟨hname, hnames⟩, rfl⟩
      exact ⟨_, ⟨hname, rfl⟩, hnames, (further_further a [] [] [name] names).symm⟩

/-- The flags that letters stand for, one for each. -/
theorem addLetters_ok_iff (ha : a.flags.Nodup) {letters : List Char} :
    letters.foldlM (fun a letter =>
      match Switch.ofLetter? letter with
      | some switch => a.raise switch
      | none => .error (.usage (.unknown argument))) a = .ok b ↔
      ∃ flags, letters.map Switch.ofLetter? = flags.map (some ∘ .flag) ∧
        b = a.further flags [] ∧ b.flags.Nodup := by
  induction letters generalizing a b with
  | nil =>
    constructor
    · rintro ⟨⟩
      exact ⟨[], rfl, (further_nil a).symm, ha⟩
    · rintro ⟨flags, hflags, rfl, -⟩
      obtain rfl : flags = [] := by simpa using hflags.symm
      exact congrArg Except.ok (further_nil a).symm
  | cons letter letters ih =>
    rw [List.foldlM_cons, bind_eq_ok]
    constructor
    · rintro ⟨mid, hletter, hletters⟩
      split at hletter
      · next switch hswitch =>
        obtain ⟨flag, rfl, rfl, hnodup⟩ := (raise_ok_iff ha).mp hletter
        obtain ⟨flags, hflags, rfl, hall⟩ := (ih hnodup).mp hletters
        exact ⟨flag :: flags, by rw [List.map_cons, List.map_cons, hswitch, hflags]; rfl,
          further_further a [flag] flags [] [], hall⟩
      · cases hletter
    · rintro ⟨flags, hflags, rfl, hall⟩
      cases flags with
      | nil => cases hflags
      | cons flag flags =>
        obtain ⟨hswitch, hmore⟩ := List.cons.inj hflags
        have hfurther : a.further (flag :: flags) [] = (a.further [flag] []).further flags [] :=
          (further_further a [flag] flags [] []).symm
        rw [hfurther] at hall ⊢
        have hnodup := nodup_of_further hall
        refine ⟨a.further [flag] [], ?_, (ih hnodup).mpr ⟨flags, hmore, rfl, hall⟩⟩
        rw [hswitch]
        exact (raise_ok_iff ha).mpr ⟨flag, rfl, rfl, hnodup⟩

theorem ofName?_eq_some_iff : Switch.ofName? name = some (.flag flag) ↔ name = flag.name := by
  constructor
  · intro h
    unfold Switch.ofName? at h
    split at h <;> cases h <;> rfl
  · rintro rfl
    cases flag <;> rfl

theorem gives_of_add (ha : a.flags.Nodup) (h : a.add argument = .ok b) :
    ∃ flags files, Gives argument flags files ∧ b = a.further flags files ∧ b.flags.Nodup := by
  have hfile : (argument.toList.head? = some '-' → argument.toList = ['-']) →
      a.addFile argument = .ok b →
      ∃ flags files, Gives argument flags files ∧ b = a.further flags files ∧ b.flags.Nodup := by
    intro hhyphen hadd
    obtain ⟨hname, rfl⟩ := addFile_ok_iff.mp hadd
    exact ⟨[], [argument], .file hname hhyphen, rfl, ha⟩
  unfold add at h
  split at h
  · next hlist => exact hfile (fun _ => hlist) h
  · next name hlist =>
    split at h
    · next switch hswitch =>
      obtain ⟨flag, rfl, rfl, hnodup⟩ := (raise_ok_iff ha).mp h
      have hname := ofName?_eq_some_iff.mp hswitch
      refine ⟨[flag], [], .long ?_, rfl, hnodup⟩
      rw [hlist, ← hname, String.toList_ofList]
    · cases h
  · next letters hne _ hlist =>
    obtain ⟨flags, hflags, rfl, hnodup⟩ := (addLetters_ok_iff ha).mp h
    exact ⟨flags, [], .letters hlist (fun heq => hne heq) hflags, rfl, hnodup⟩
  · next hother =>
    refine hfile (fun hhyphen => ?_) h
    obtain ⟨letters, hlist⟩ := List.head?_eq_some_iff.mp hhyphen
    exact absurd hlist (hother letters)

theorem add_of_gives (ha : a.flags.Nodup) (h : Gives argument flags files)
    (hnodup : (a.further flags files).flags.Nodup) :
    a.add argument = .ok (a.further flags files) := by
  unfold add
  cases h with
  | file hname hhyphen =>
    have hadd : a.addFile argument = .ok (a.further [] [argument]) :=
      addFile_ok_iff.mpr ⟨hname, rfl⟩
    split
    · exact hadd
    · next hlist => cases hlist.symm.trans (hhyphen (by rw [hlist]; rfl))
    · next hne _ hlist =>
      cases hlist.symm.trans (hhyphen (by rw [hlist]; rfl))
      exact absurd rfl hne
    · exact hadd
  | @long flag hlist =>
    rw [hlist]
    show (match Switch.ofName? (String.ofList flag.name.toList) with
      | some switch => a.raise switch
      | none => .error (.usage (.unknown argument))) = _
    rw [String.ofList_toList, ofName?_eq_some_iff.mpr rfl]
    exact (raise_ok_iff ha).mpr ⟨flag, rfl, rfl, hnodup⟩
  | @letters letters _ hlist hne hflags =>
    rw [hlist]
    split
    · next heq =>
      cases heq
      exact absurd rfl hne
    · next heq =>
      -- A hyphen is no letter of a flag.
      cases heq
      cases flags <;> cases hflags
    · next heq =>
      cases heq
      exact (addLetters_ok_iff ha).mpr ⟨flags, hflags, rfl, hnodup⟩
    · next hother => exact absurd rfl (hother letters)

/-- The arguments are read exactly if they give no flag twice. -/
theorem addAll_ok_iff (ha : a.flags.Nodup) :
    a.addAll arguments = .ok b ↔
      ∃ flags files, Reads arguments flags files ∧ b = a.further flags files ∧ b.flags.Nodup := by
  induction arguments generalizing a b with
  | nil =>
    constructor
    · rintro ⟨⟩
      exact ⟨[], [], .nil, (further_nil a).symm, ha⟩
    · rintro ⟨_, _, ⟨⟩, rfl, -⟩
      exact congrArg Except.ok (further_nil a).symm
  | cons argument more ih =>
    by_cases hdashes : argument = "--"
    · subst hdashes
      refine addFiles_ok_iff.trans ⟨?_, ?_⟩
      · rintro ⟨hnames, rfl⟩
        exact ⟨[], more, .files hnames, rfl, ha⟩
      · rintro ⟨flags, files, hreads, rfl, -⟩
        cases hreads with
        | files hnames => exact ⟨hnames, rfl⟩
        | argument hne => exact absurd rfl hne
    · have hmore : a.addAll (argument :: more) = a.add argument >>= fun a => a.addAll more := by
        rw [addAll]
        exact hdashes
      rw [hmore, bind_eq_ok]
      constructor
      · rintro ⟨mid, hadd, hrest⟩
        obtain ⟨flags, files, hgives, rfl, hnodup⟩ := gives_of_add ha hadd
        obtain ⟨flags', files', hreads, rfl, hall⟩ := (ih hnodup).mp hrest
        exact ⟨_, _, .argument hdashes hgives hreads, further_further a flags flags' files files',
          hall⟩
      · rintro ⟨_, _, hreads, rfl, hall⟩
        cases hreads with
        | files => exact absurd rfl hdashes
        | @argument _ _ flags flags' files files' _ hgives hreads =>
          rw [← further_further] at hall ⊢
          have hnodup := nodup_of_further hall
          exact ⟨_, add_of_gives ha hgives hnodup,
            (ih hnodup).mpr ⟨flags', files', hreads, rfl, hall⟩⟩

end Arguments

/-! ### Modes -/

/-- The mode that flags and the setting for `--check` ask for.  Flags for two modes exclude each
other, and besides a flag for another mode the setting does so whatever its value is. -/
inductive Asks (flags : List Flag) (setting : Option String) : Mode → Prop
  | print : .check ∉ flags → .ast ∉ flags → .inPlace ∉ flags →
    setting = none ∨ setting = some "false" → Asks flags setting .print
  | check : .check ∈ flags ∨ setting = some "true" → .ast ∉ flags → .inPlace ∉ flags →
    Asks flags setting .check
  | ast : .ast ∈ flags → .check ∉ flags → .inPlace ∉ flags → setting = none →
    Asks flags setting .ast
  | inPlace : .inPlace ∈ flags → .check ∉ flags → .ast ∉ flags → setting = none →
    Asks flags setting .inPlace

namespace Options

theorem check?_ok_iff {check : Option Bool} :
    check? flags setting = .ok check ↔
      (.check ∈ flags ∨ setting = some "true") ∧ check = some true ∨
      .check ∉ flags ∧ (setting = none ∧ check = none ∨
        setting = some "false" ∧ check = some false) := by
  unfold check?
  by_cases hcheck : .check ∈ flags
  · simp [hcheck, eq_comm]
  · rw [if_neg hcheck]
    cases setting with
    | none => simp [hcheck, eq_comm]
    | some value =>
      by_cases htrue : value = "true"
      · subst htrue
        simp [checkSetting?, hcheck, eq_comm]
      by_cases hfalse : value = "false"
      · subst hfalse
        simp [checkSetting?, hcheck, eq_comm]
      have hnone : checkSetting? value = none := by
        unfold checkSetting?
        split <;> simp_all
      simp [hnone, hcheck, htrue, hfalse]

theorem mode?_ok_iff {check : Option Bool} {ast inPlace : Bool} :
    mode? check ast inPlace = .ok mode ↔
      match mode with
      | .print => ast = false ∧ inPlace = false ∧ check ≠ some true
      | .check => ast = false ∧ inPlace = false ∧ check = some true
      | .ast => ast = true ∧ inPlace = false ∧ check = none
      | .inPlace => ast = false ∧ inPlace = true ∧ check = none := by
  rcases check with _ | _ | _ <;> cases ast <;> cases inPlace <;> cases mode <;> simp [mode?]

/-- What the flags ask for, by way of the value that `--check` has. -/
theorem asks_iff :
    Asks flags setting mode ↔ ∃ check, check? flags setting = .ok check ∧
      mode? check (.ast ∈ flags) (.inPlace ∈ flags) = .ok mode := by
  simp only [check?_ok_iff, mode?_ok_iff, decide_eq_true_eq, decide_eq_false_iff_not]
  constructor
  · rintro (⟨hcheck, hast, hinPlace, hsetting⟩ | ⟨hcheck, hast, hinPlace⟩ |
      ⟨hast, hcheck, hinPlace, hsetting⟩ | ⟨hinPlace, hcheck, hast, hsetting⟩)
    · rcases hsetting with rfl | rfl
      · exact ⟨none, .inr ⟨hcheck, .inl ⟨rfl, rfl⟩⟩, hast, hinPlace, nofun⟩
      · exact ⟨some false, .inr ⟨hcheck, .inr ⟨rfl, rfl⟩⟩, hast, hinPlace, nofun⟩
    · exact ⟨some true, .inl ⟨hcheck, rfl⟩, hast, hinPlace, rfl⟩
    · exact ⟨none, .inr ⟨hcheck, .inl ⟨hsetting, rfl⟩⟩, hast, hinPlace, rfl⟩
    · exact ⟨none, .inr ⟨hcheck, .inl ⟨hsetting, rfl⟩⟩, hast, hinPlace, rfl⟩
  · rintro ⟨check, hcheck, hmode⟩
    cases mode with
    | print =>
      obtain ⟨hast, hinPlace, hne⟩ := hmode
      obtain ⟨-, rfl⟩ | ⟨hnot, hsetting⟩ := hcheck
      · exact absurd rfl hne
      · exact .print hnot hast hinPlace (hsetting.imp And.left And.left)
    | check =>
      obtain ⟨hast, hinPlace, rfl⟩ := hmode
      obtain ⟨hgiven, -⟩ | ⟨-, ⟨-, hvalue⟩ | ⟨-, hvalue⟩⟩ := hcheck
      · exact .check hgiven hast hinPlace
      all_goals cases hvalue
    | ast =>
      obtain ⟨hast, hinPlace, rfl⟩ := hmode
      obtain ⟨-, hvalue⟩ | ⟨hnot, ⟨hsetting, -⟩ | ⟨-, hvalue⟩⟩ := hcheck
      · cases hvalue
      · exact .ast hast hnot hinPlace hsetting
      · cases hvalue
    | inPlace =>
      obtain ⟨hast, hinPlace, rfl⟩ := hmode
      obtain ⟨-, hvalue⟩ | ⟨hnot, ⟨hsetting, -⟩ | ⟨-, hvalue⟩⟩ := hcheck
      · cases hvalue
      · exact .inPlace hinPlace hnot hast hsetting
      · cases hvalue

theorem ofArguments_ok_iff {o : Options} :
    ofArguments a setting = .ok o ↔
      Asks a.flags setting o.mode ∧ (.inPlace ∈ a.flags → a.files ≠ []) ∧
        o.files = a.files ∧ o.verbose = decide (.verbose ∈ a.flags) := by
  unfold ofArguments
  rw [bind_eq_ok]
  simp only [bind_eq_ok]
  constructor
  · rintro ⟨check, hcheck, mode, hmode, hoptions⟩
    split at hoptions
    · cases hoptions
    · next hfiles =>
      cases hoptions
      exact ⟨asks_iff.mpr ⟨check, hcheck, hmode⟩, by simpa using hfiles, rfl, rfl⟩
  · rintro ⟨hasks, hfiles, hsame, hverbose⟩
    obtain ⟨check, hcheck, hmode⟩ := asks_iff.mp hasks
    refine ⟨check, hcheck, o.mode, hmode, ?_⟩
    rw [if_neg (by simpa using hfiles), ← hsame, ← hverbose]
    rfl

theorem asks_reverse : Asks flags.reverse setting mode ↔ Asks flags setting mode := by
  simp only [asks_iff, check?_ok_iff, List.mem_reverse]

theorem exists_of_parse_ok {o : Options} :
    parse arguments setting = .ok o ↔
      ∃ a, Arguments.addAll ⟨[], []⟩ arguments = .ok a ∧ ofArguments a setting = .ok o := by
  unfold parse
  rw [bind_eq_ok]
  refine exists_congr fun a => and_congr_right fun _ => ?_
  cases ofArguments a setting with
  | error e => exact ⟨nofun, nofun⟩
  | ok found => exact ⟨fun h => by cases h; rfl, fun h => by cases h; rfl⟩

/-- Arguments come to options exactly if they give no flag twice, their flags ask for the mode
together with the setting, and there are files wherever they are to be changed. -/
theorem parse_ok_iff {o : Options} :
    parse arguments setting = .ok o ↔
      ∃ flags, Arguments.Reads arguments flags o.files ∧ flags.Nodup ∧ Asks flags setting o.mode ∧
        (.inPlace ∈ flags → o.files ≠ []) ∧ o.verbose = decide (.verbose ∈ flags) := by
  simp only [exists_of_parse_ok, ofArguments_ok_iff,
    Arguments.addAll_ok_iff (a := ⟨[], []⟩) List.nodup_nil]
  constructor
  · rintro ⟨_, ⟨flags, files, hreads, rfl, hnodup⟩, hasks, hfiles, hsame, hverbose⟩
    simp only [Arguments.further, List.append_nil, List.nil_append, asks_reverse,
      List.mem_reverse] at hnodup hasks hfiles hsame hverbose
    subst hsame
    exact ⟨flags, hreads, (List.reverse_perm flags).nodup_iff.mp hnodup, hasks, hfiles, hverbose⟩
  · rintro ⟨flags, hreads, hnodup, hasks, hfiles, hverbose⟩
    refine ⟨_, ⟨flags, o.files, hreads, rfl, ?_⟩, ?_⟩ <;>
      simp only [Arguments.further, List.append_nil, List.nil_append, asks_reverse,
        List.mem_reverse]
    · exact (List.reverse_perm flags).nodup_iff.mpr hnodup
    · exact ⟨hasks, hfiles, trivial, hverbose⟩

example : parse ["-vi", "-", "--", "--check"] none = .ok ⟨["-", "--check"], .inPlace, true⟩ := by
  rfl

end Options
end QueryCanon
