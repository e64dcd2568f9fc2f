/-
Which command lines are accepted, said without an order of reading.

The arguments are read from left to right, and the first that settles the outcome wins. What is
accepted does not depend on that. It is told by the two parts of the command line, in front of the
first `--` and behind it: the first holds nothing but `--json`, at most once, and paths; the second
holds paths; and of all these paths there is at most one, which is not empty (`Acceptable`). Every
other command line ends in help, in the version or in a usage error, and gives a reason for the one
that it ends in (`Reason`).

No acceptable command line gives a reason, so both are proved by one run of the reader. What it has
seen is what the arguments behind it ask for (`Seen`). Each argument either keeps that or is a
reason to stop, and at the end nothing is left that could be wrong (`Seen.answers`).
-/
import LongFunctions.Command
import LongFunctions.Proofs.Text.Runs

set_option autoImplicit false

namespace LongFunctions

/-! ## 1. One argument -/

/-- Whether an argument in front of the first `--` is a path: it is `-`, or it does not start with
a dash. -/
def IsPathArgument (text : String) : Prop :=
  text = "-" ∨ ¬ "-".toList <+: text.toList

instance : DecidablePred IsPathArgument := fun text =>
  inferInstanceAs (Decidable (text = "-" ∨ ¬ "-".toList <+: text.toList))

/-- The flags with a long name. -/
def longFlags : List (String × Flag) :=
  [("--json", .json), ("--help", .help true), ("--version", .version)]

/-- What an argument in front of the first `--` means, if it means something. A flag of one letter
may have anything behind it. -/
inductive Means : String → Argument → Prop
  | separator : Means "--" .separator
  | path {text : String} (h : IsPathArgument text) : Means text (.path text)
  | long {name : String} {flag : Flag} (h : (name, flag) ∈ longFlags) : Means name (.flag flag)
  | shortHelp (rest : String) : Means ("-h" ++ rest) (.flag (.help false))
  | shortVersion (rest : String) : Means ("-V" ++ rest) (.flag .version)
  | valued {name : String} {flag : Flag} (h : (name, flag) ∈ longFlags) (value : String) :
      Means (name ++ "=" ++ value) (.valuedFlag name value)

theorem mem_longFlags_iff {name : String} {flag : Flag} :
    (name, flag) ∈ longFlags ↔
      name = "--json" ∧ flag = .json ∨ name = "--help" ∧ flag = .help true ∨
        name = "--version" ∧ flag = .version := by
  simp only [longFlags, List.mem_cons, Prod.mk.injEq, List.not_mem_nil, or_false]

/-- A name that is known behind two dashes is a long one. -/
theorem mem_longFlags_of_ofName? {name : List Char} {flag : Flag}
    (h : Flag.ofName? name = some flag) : ("--" ++ String.ofList name, flag) ∈ longFlags := by
  rw [Flag.ofName?] at h
  split_ifs at h with hjson hhelp hversion
  · cases h
    rw [hjson]
    decide +kernel
  · cases h
    rw [hhelp]
    decide +kernel
  · cases h
    rw [hversion]
    decide +kernel

theorem IsPathArgument.ofString_eq {text : String} (h : IsPathArgument text) :
    Argument.ofString text = .path text := by
  rcases h with rfl | hdash
  · decide
  · -- all that is no path starts with a dash
    rw [Argument.ofString]
    split
    · next htext => exact absurd (htext ▸ List.prefix_append ['-'] _) hdash
    · next htext => exact absurd (htext ▸ List.prefix_append ['-'] _) hdash
    · next htext => exact absurd (htext ▸ List.prefix_append ['-'] _) hdash
    · rfl

/-- An argument is read as what it means. So it means one thing at most. -/
theorem Means.ofString_eq {text : String} {argument : Argument} (h : Means text argument) :
    Argument.ofString text = argument := by
  cases h with
  | separator => decide
  | path h => exact h.ofString_eq
  | long h =>
    rcases mem_longFlags_iff.mp h with ⟨rfl, rfl⟩ | ⟨rfl, rfl⟩ | ⟨rfl, rfl⟩
    all_goals decide
  | shortHelp rest =>
    rw [Argument.ofString, String.toList_append]
    rfl
  | shortVersion rest =>
    rw [Argument.ofString, String.toList_append]
    rfl
  | valued h value =>
    rcases mem_longFlags_iff.mp h with ⟨rfl, rfl⟩ | ⟨rfl, rfl⟩ | ⟨rfl, rfl⟩
    all_goals
      rw [Argument.ofString, String.toList_append]
      exact congrArg (Argument.valuedFlag _) String.ofList_toList

/-- An argument means what it is read as, unless it is read as unknown. -/
theorem means_ofString (text : String) :
    Means text (Argument.ofString text) ∨ Argument.ofString text = .unknown := by
  have htext {chars : List Char} (h : text.toList = chars) : text = String.ofList chars := by
    rw [← h, String.ofList_toList]
  rw [Argument.ofString]
  split
  · next h =>
    rw [htext h]
    exact Or.inl Means.separator
  · next long hlong h =>
    dsimp only
    -- the name and what stands behind it
    have hparts : text = "--" ++ String.ofList (long.takeWhile (· ≠ '=')) ++
        String.ofList (long.dropWhile (· ≠ '=')) := by
      rw [htext h, ← String.toList_inj]
      simp
    split
    · next flag hflag hrest =>
      rw [hparts, hrest, String.ofList_nil, String.append_empty]
      exact Or.inl (Means.long (mem_longFlags_of_ofName? hflag))
    · next flag c value hflag hrest =>
      obtain ⟨rfl, -⟩ := eq_append_of_dropWhile_ne hrest
      have hvalue : String.ofList ('=' :: value) = "=" ++ String.ofList value := by
        rw [← List.singleton_append, String.ofList_append]
      rw [hparts, hrest, hvalue, ← String.append_assoc]
      exact Or.inl (Means.valued (mem_longFlags_of_ofName? hflag) _)
    · exact Or.inr rfl
  · next letter rest _ _ h =>
    have hparts (c : Char) (hc : letter = c) :
        text = String.ofList ['-', c] ++ String.ofList rest := by
      rw [htext h, hc, ← String.ofList_append]
      rfl
    rw [Flag.ofLetter?]
    split_ifs with hhelp hversion
    · rw [hparts 'h' hhelp]
      exact Or.inl (Means.shortHelp _)
    · rw [hparts 'V' hversion]
      exact Or.inl (Means.shortVersion _)
    · exact Or.inr rfl
  · next _ _ hother =>
    -- a dash that nothing stands behind is a path
    refine Or.inl (Means.path (or_iff_not_imp_left.mpr ?_))
    rintro hdash ⟨rest, hrest⟩
    cases rest with
    | nil => exact hdash (htext hrest.symm)
    | cons letter rest => exact hother letter rest hrest.symm

/-- An argument that is read as unknown means nothing. -/
theorem not_means_of_unknown {text : String} (h : Argument.ofString text = .unknown)
    (argument : Argument) : ¬ Means text argument := by
  intro hmeans
  rw [hmeans.ofString_eq] at h
  rw [h] at hmeans
  cases hmeans

/-! ## 2. All arguments -/

/-- The arguments in front of the first `--`, which are all of them when there is none. -/
def beforeDashes (arguments : List String) : List String :=
  arguments.takeWhile (· ≠ "--")

/-- The arguments behind the first `--`. -/
def behindDashes (arguments : List String) : List String :=
  (arguments.dropWhile (· ≠ "--")).tail

/-- The paths among the arguments: those in front of the first `--`, and all that is behind it. -/
def pathArguments (arguments : List String) : List String :=
  (beforeDashes arguments).filter (IsPathArgument ·) ++ behindDashes arguments

theorem pathArguments_cons {text : String} (h : IsPathArgument text) (rest : List String) :
    pathArguments (text :: rest) = text :: pathArguments rest := by
  have htext : text ≠ "--" := by
    rintro rfl
    exact absurd h (by decide)
  simp [pathArguments, beforeDashes, behindDashes, htext, h]

/-- Whether arguments are accepted. -/
structure Acceptable (arguments : List String) : Prop where
  known : ∀ text ∈ beforeDashes arguments, text = "--json" ∨ IsPathArgument text
  json_once : (beforeDashes arguments).count "--json" ≤ 1
  one_path : (pathArguments arguments).length ≤ 1
  not_empty : "" ∉ pathArguments arguments

/-- What the arguments ask for. -/
def requested (arguments : List String) : Arguments :=
  { path := (pathArguments arguments).head?
    json := decide ("--json" ∈ beforeDashes arguments) }

/-- A reason that the arguments give to end without a survey. -/
inductive Reason (arguments : List String) : Halt → Prop
  | help {text : String} {full : Bool} (h : text ∈ beforeDashes arguments)
      (hmeans : Means text (.flag (.help full))) : Reason arguments (.help full)
  | version {text : String} (h : text ∈ beforeDashes arguments)
      (hmeans : Means text (.flag .version)) : Reason arguments .version
  | unknown {text : String} (h : text ∈ beforeDashes arguments)
      (hmeans : ∀ argument, ¬ Means text argument) : Reason arguments (.usage (.unexpected text))
  | secondPath {first text : String} {rest : List String}
      (h : pathArguments arguments = first :: text :: rest) :
      Reason arguments (.usage (.unexpected text))
  | value {text flag value : String} (h : text ∈ beforeDashes arguments)
      (hmeans : Means text (.valuedFlag flag value)) :
      Reason arguments (.usage (.unexpectedValue flag value))
  | repeated (h : 2 ≤ (beforeDashes arguments).count "--json") :
      Reason arguments (.usage .repeatedFlag)
  | emptyPath (h : "" ∈ pathArguments arguments) : Reason arguments (.usage .emptyPath)

theorem means_json : Means "--json" (.flag .json) :=
  Means.long (by decide)

/-- In front of the first `--`, acceptable arguments mean nothing but `--json` and paths. -/
theorem Acceptable.meaning {arguments : List String} (h : Acceptable arguments) {text : String}
    (htext : text ∈ beforeDashes arguments) {argument : Argument} (hmeans : Means text argument) :
    argument = .flag .json ∨ argument = .path text := by
  rw [← hmeans.ofString_eq]
  rcases h.known text htext with rfl | hpath
  · exact Or.inl means_json.ofString_eq
  · exact Or.inr hpath.ofString_eq

/-- Acceptable arguments give no reason to end. -/
theorem Reason.not_acceptable {arguments : List String} {halt : Halt} (h : Reason arguments halt) :
    ¬ Acceptable arguments := by
  intro hacceptable
  cases h with
  | help h hmeans => simpa using hacceptable.meaning h hmeans
  | version h hmeans => simpa using hacceptable.meaning h hmeans
  | unknown h hno =>
    rcases hacceptable.known _ h with rfl | hpath
    · exact hno _ means_json
    · exact hno _ (Means.path hpath)
  | secondPath h =>
    have hone := hacceptable.one_path
    rw [h, List.length_cons, List.length_cons] at hone
    omega
  | value h hmeans => simpa using hacceptable.meaning h hmeans
  | repeated h => exact absurd hacceptable.json_once (by omega)
  | emptyPath h => exact hacceptable.not_empty h

/-! ## 3. Reading the arguments -/

/-- What the reader has seen behind some arguments, none of which was a reason to stop: they are
`--json` and paths, and it has noted them. That a path is not empty is checked later. -/
structure Seen (done : List String) (seen : Arguments) : Prop where
  known : ∀ text ∈ done, text = "--json" ∨ IsPathArgument text
  json : done.count "--json" = seen.json.toNat
  path : done.filter (IsPathArgument ·) = seen.path.toList

namespace Seen

variable {done rest : List String} {text : String} {seen : Arguments}

theorem start : Seen [] {} :=
  ⟨List.forall_mem_nil _, rfl, rfl⟩

theorem ne_dashes (h : Seen done seen) : ∀ text ∈ done, decide (text ≠ "--") = true := by
  intro text htext
  rw [decide_eq_true_eq]
  rintro rfl
  have hdashes : ¬ ("--" = "--json" ∨ IsPathArgument "--") := by decide
  exact hdashes (h.known _ htext)

theorem beforeDashes_append (h : Seen done seen) (rest : List String) :
    beforeDashes (done ++ rest) = done ++ beforeDashes rest :=
  List.takeWhile_append_of_pos h.ne_dashes

theorem pathArguments_append (h : Seen done seen) (rest : List String) :
    pathArguments (done ++ rest) = seen.path.toList ++ pathArguments rest := by
  have hbehind : behindDashes (done ++ rest) = behindDashes rest := by
    rw [behindDashes, List.dropWhile_append_of_pos h.ne_dashes, behindDashes]
  rw [pathArguments, h.beforeDashes_append, hbehind, List.filter_append, h.path, List.append_assoc,
    pathArguments]

/-- The next argument is in front of the first `--` unless it is that itself. -/
theorem mem_beforeDashes (h : Seen done seen) {argument : Argument}
    (hargument : Argument.ofString text = argument) (hne : argument ≠ .separator)
    (rest : List String) : text ∈ beforeDashes (done ++ text :: rest) := by
  have htext : text ≠ "--" := by
    rintro rfl
    exact hne (hargument.symm.trans Means.separator.ofString_eq)
  rw [h.beforeDashes_append, beforeDashes, List.takeWhile_cons_of_pos (by simpa using htext)]
  exact List.mem_append_right _ List.mem_cons_self

/-- The first path is noted. -/
theorem add_path (h : Seen done seen) (hpath : IsPathArgument text) (hnone : seen.path = none) :
    Seen (done ++ [text]) { seen with path := some text } := by
  have hjson : text ≠ "--json" := by
    rintro rfl
    exact absurd hpath (by decide)
  refine ⟨?_, ?_, ?_⟩
  · exact List.forall_mem_append.mpr ⟨h.known, List.forall_mem_singleton.mpr (Or.inr hpath)⟩
  · rw [List.count_append, h.json, List.count_singleton]
    simp [hjson]
  · rw [List.filter_append, h.path, hnone, List.filter_singleton]
    simp [hpath]

/-- The first `--json` is noted. -/
theorem add_json (h : Seen done seen) (hnone : seen.json = false) :
    Seen (done ++ ["--json"]) { seen with json := true } := by
  refine ⟨?_, ?_, ?_⟩
  · exact List.forall_mem_append.mpr ⟨h.known, List.forall_mem_singleton.mpr (Or.inl rfl)⟩
  · rw [List.count_append, h.json, hnone]
    rfl
  · rw [List.filter_append, h.path]
    exact List.append_nil _

end Seen

/-- What is to be answered to arguments: what they ask for when they are acceptable, and else an end
that they give a reason for. -/
def Answers (arguments : List String) : Except Halt Arguments → Prop
  | .ok seen => Acceptable arguments ∧ seen = requested arguments
  | .error halt => Reason arguments halt

namespace Seen

variable {arguments done rest : List String} {seen : Arguments}

/-- When everything has been noted, only an empty path can be wrong. -/
theorem answers_checkPath (h : Seen done seen) {noted : Arguments}
    (hbefore : beforeDashes arguments = done) (hpaths : pathArguments arguments = noted.path.toList)
    (hjson : noted.json = seen.json) : Answers arguments noted.checkPath := by
  rw [Arguments.checkPath]
  split_ifs with hempty
  · refine Reason.emptyPath ?_
    rw [hpaths, hempty]
    exact List.mem_singleton_self ""
  · have hcount : (beforeDashes arguments).count "--json" = noted.json.toNat := by
      rw [hbefore, h.json, hjson]
    refine ⟨⟨?_, ?_, ?_, ?_⟩, ?_⟩
    · rw [hbefore]
      exact h.known
    · rw [hcount]
      exact Bool.toNat_le _
    · rw [hpaths]
      cases noted.path <;> simp
    · rw [hpaths, Option.mem_toList]
      exact hempty
    · have hmem : "--json" ∈ beforeDashes arguments ↔ noted.json = true := by
        rw [← List.count_pos_iff, hcount]
        cases noted.json <;> decide
      rw [requested, hpaths, Option.head?_toList]
      simp [hmem]

/-- Behind the first `--` there are only paths, of which the first two decide. -/
theorem answers_addPaths (h : Seen done seen) (hbefore : beforeDashes arguments = done)
    (hpaths : pathArguments arguments = seen.path.toList ++ rest) :
    Answers arguments ((seen.addPaths rest).bind (·.checkPath)) := by
  obtain ⟨path, json⟩ := seen
  cases path with
  | none =>
    match rest with
    | [] => exact h.answers_checkPath hbefore hpaths rfl
    | [first] => exact h.answers_checkPath hbefore hpaths rfl
    | first :: text :: rest => exact Reason.secondPath hpaths
  | some first =>
    match rest with
    | [] => exact h.answers_checkPath hbefore hpaths rfl
    | text :: rest => exact Reason.secondPath hpaths

/-- A path is noted when it is the first. -/
theorem answers_path (h : Seen done seen) {text : String} (hpath : IsPathArgument text)
    (hrest : ∀ noted, Seen (done ++ [text]) noted →
      Answers (done ++ text :: rest) (noted.read rest)) :
    Answers (done ++ text :: rest) ((seen.addPath text).bind (·.read rest)) := by
  rw [Arguments.addPath]
  cases hseen : seen.path with
  | none => exact hrest _ (h.add_path hpath hseen)
  | some first =>
    have hpaths : pathArguments (done ++ text :: rest) = first :: text :: pathArguments rest := by
      rw [h.pathArguments_append, hseen, pathArguments_cons hpath]
      rfl
    exact Reason.secondPath hpaths

/-- A flag ends the reading, or it is the first `--json`. -/
theorem answers_flag (h : Seen done seen) {text : String} {flag : Flag}
    (hmeans : Means text (.flag flag))
    (hrest : ∀ noted, Seen (done ++ [text]) noted →
      Answers (done ++ text :: rest) (noted.read rest)) :
    Answers (done ++ text :: rest) ((seen.checkPath.bind (·.addFlag flag)).bind (·.read rest)) := by
  have hmem := h.mem_beforeDashes hmeans.ofString_eq nofun rest
  rw [Arguments.checkPath]
  split_ifs with hempty
  · refine Reason.emptyPath ?_
    rw [h.pathArguments_append, hempty]
    exact List.mem_append_left _ (List.mem_singleton_self "")
  cases flag with
  | help full => exact Reason.help hmem hmeans
  | version => exact Reason.version hmem hmeans
  | json =>
    have htext : text = "--json" := by
      cases hmeans with
      | long hlong => simpa using mem_longFlags_iff.mp hlong
    subst htext
    show Answers _ ((if seen.json then _ else _ : Except Halt Arguments).bind _)
    split_ifs with hjson
    · -- one `--json` has been seen, and this is another
      refine Reason.repeated ?_
      rw [h.beforeDashes_append, List.count_append, h.json, hjson, beforeDashes,
        List.takeWhile_cons_of_pos (by decide), List.count_cons_self]
      show 2 ≤ 1 + (_ + 1)
      omega
    · exact hrest _ (h.add_json (Bool.eq_false_iff.mpr hjson))

/-- **Reading.** From what it has seen, the reader comes to an answer to all the arguments. The
induction is on those that are left. -/
theorem answers (h : Seen done seen) (rest : List String) :
    Answers (done ++ rest) (seen.read rest) := by
  induction rest generalizing done seen with
  | nil =>
    refine h.answers_checkPath ?_ ?_ rfl
    · rw [h.beforeDashes_append]
      exact List.append_nil _
    · rw [h.pathArguments_append]
      exact List.append_nil _
  | cons text rest ih =>
    have hrest : ∀ noted, Seen (done ++ [text]) noted →
        Answers (done ++ text :: rest) (noted.read rest) := by
      intro noted hnoted
      rw [List.append_cons]
      exact ih hnoted
    rw [Arguments.read]
    rcases means_ofString text with hmeans | hunknown
    · cases hargument : Argument.ofString text with
      | separator =>
        rw [hargument] at hmeans
        cases hmeans with
        | separator =>
          refine h.answers_addPaths ?_ ?_
          · rw [h.beforeDashes_append]
            exact List.append_nil _
          · rw [h.pathArguments_append]
            rfl
      | path other =>
        rw [hargument] at hmeans
        cases hmeans with
        | path hpath => exact h.answers_path hpath hrest
      | flag flag => exact h.answers_flag (hargument ▸ hmeans) hrest
      | valuedFlag flag value =>
        exact Reason.value (h.mem_beforeDashes hargument nofun rest) (hargument ▸ hmeans)
      | unknown =>
        rw [hargument] at hmeans
        cases hmeans
    · rw [hunknown]
      exact Reason.unknown (h.mem_beforeDashes hunknown nofun rest) (not_means_of_unknown hunknown)

end Seen

/-! ## 4. The command line -/

/-- **The command line.** It is accepted when the arguments in front of the first `--` are paths and
`--json`, which is there at most once, and when there is at most one path in all and it is not
empty. Otherwise it ends in help, in the version or in a usage error, for a reason that it gives. A
usage error is all that is told then: nothing is printed on the standard output, and what the file
system holds has no influence. How the error is worded is not meant; `UsageError.text` stands in for
the wording. -/
theorem parse_spec (arguments : List String) :
    (∀ seen, Arguments.parse arguments = .ok seen ↔
      Acceptable arguments ∧ seen = requested arguments) ∧
    (¬ Acceptable arguments →
      ∃ halt, Arguments.parse arguments = .error halt ∧ Reason arguments halt) ∧
    ∀ error, Arguments.parse arguments = .error (.usage error) → ∀ fs,
      runCommand fs arguments = { exitCode := 2, stdout := "", stderr := error.text } := by
  have hanswers : Answers arguments (Arguments.parse arguments) := Seen.start.answers arguments
  refine ⟨?_, ?_, ?_⟩
  · intro seen
    cases hparse : Arguments.parse arguments with
    | ok found =>
      rw [hparse] at hanswers
      obtain ⟨hacceptable, hfound⟩ := hanswers
      rw [Except.ok.injEq, hfound]
      exact ⟨fun heq => ⟨hacceptable, heq.symm⟩, fun h => h.2.symm⟩
    | error halt =>
      rw [hparse] at hanswers
      refine iff_of_false nofun ?_
      exact fun h => hanswers.not_acceptable h.1
  · intro hrefused
    cases hparse : Arguments.parse arguments with
    | ok found =>
      rw [hparse] at hanswers
      exact absurd hanswers.1 hrefused
    | error halt =>
      rw [hparse] at hanswers
      exact ⟨halt, rfl, hanswers⟩
  · intro error hparse fs
    rw [runCommand, hparse]
    rfl

/-- Behind `--` there is no flag any more, so this is a second path. That the first one is empty is
not what the command complains about. -/
theorem parse_spec_twoPaths :
    ¬ Acceptable ["", "--", "--json"] ∧
      Arguments.parse ["", "--", "--json"] = .error (.usage (.unexpected "--json")) ∧
      Reason ["", "--", "--json"] (.usage (.unexpected "--json")) ∧
      ∀ fs, runCommand fs ["", "--", "--json"] =
        { exitCode := 2, stdout := "", stderr := (UsageError.unexpected "--json").text } := by
  have hrefused : ¬ Acceptable ["", "--", "--json"] := fun h => absurd h.one_path (by decide)
  have hparse : Arguments.parse ["", "--", "--json"] = .error (.usage (.unexpected "--json")) := by
    decide
  obtain ⟨-, hreason, herror⟩ := parse_spec ["", "--", "--json"]
  obtain ⟨halt, hhalt, hgiven⟩ := hreason hrefused
  rw [hparse, Except.error.injEq] at hhalt
  exact ⟨hrefused, hparse, hhalt ▸ hgiven, herror _ hparse⟩

/-- A `--json` in front of `--` is the flag, and one behind it is the path. -/
example : Arguments.parse ["--json", "--", "--json"] =
    .ok { path := some "--json", json := true } := by
  decide

end LongFunctions
