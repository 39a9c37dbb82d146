import Mathlib

/-!
# Shell logic of the `csg` iteration scripts

Three pieces of the iterative coarse-graining scripts decide something themselves, rather than
hand it to a program:

* `do_potential_zero_overwrite` of the multistate integral-equation update picks, at step
  `step_nr`, the entry `(step_nr - 1) % ${#scheme[@]}` of the interaction's `do_potential`
  scheme, and when it reads `0` replaces the potential update by a table of zeros. Bash's `%`
  truncates toward zero and a negative subscript counts from the end; together they read the
  entry `(step_nr - 1) mod n`, Euclidean, at every step, step `0` included, where the last entry
  is read (`doPotentialZeroOverwrite_eq`). An empty scheme is a division by zero, which ends
  the script.
* The loop over the states that the multistate update and the dc/dh preparation share builds
  each topology path as `${state}/` followed by `cg.inverse.iie.topol`, and falls back to the
  simulation program's topology when that path is empty. It never is, so the fallback is dead
  (`topolState_eq`): the loop completes exactly when every state's path is a regular file with
  a numeric volume (`stateTopologies_eq_ok`), and an empty `cg.inverse.iie.topol` stops it at
  its first state on the directory `${state}/` (`stateTopologies_emptyTopol`).
* The resample-target script parses its options, checks its arguments, resamples the target
  distribution and extrapolates it by the interaction's type. Its option loop only enters on
  arguments that start with `--`, so its `-h` case is never reached: the script shows its help
  exactly when the options are some `--no-extrap` followed by `--help` (`resampleTarget_help`).

Programs the scripts call (`csg_resample`, `table extrapolate`, …) are commands in the model;
what they do to a table is theirs.
-/

namespace Votca.Csg

/-! ## Bash -/

/-- Bash's splitting of an unquoted `$(...)` on the default `IFS`: fields separated by runs of
spaces, tabs and newlines. -/
def words (s : String) : List String :=
  ((s.toList.splitOnP fun c => c == ' ' || c == '\t' || c == '\n').filter fun w => !w.isEmpty).map
    String.mk

/-- `${a[i]}`: a negative subscript counts from the end; out of range, bash reports a bad
subscript and reads the empty string. -/
def bashArrayGet (a : List String) (i : ℤ) : String :=
  let j := if 0 ≤ i then i else (a.length : ℤ) + i
  if 0 ≤ j then a.getD j.toNat "" else ""

/-- `tmod` of a negated number is the negated `tmod`. -/
theorem neg_tmod (m n : ℤ) : (-m).tmod n = -m.tmod n := by
  simp only [Int.tmod_def, Int.neg_tdiv]
  ring

/-- **Bash's `%` and negative subscripts read the Euclidean remainder**: `${a[m % n]}`, `n` the
length of `a`, is the entry `m mod n`, for every integer `m`. -/
theorem bashArrayGet_tmod (a : List String) (h : a ≠ []) (m : ℤ) :
    bashArrayGet a (m.tmod a.length) = a.getD (m % a.length).toNat "" := by
  have hn : (0 : ℤ) < a.length := by exact_mod_cast List.length_pos.2 h
  set n : ℤ := (a.length : ℤ)
  have hdiv := Int.tmod_add_tdiv m n
  have hlt := Int.tmod_lt_of_pos m hn
  have hgt : -n < m.tmod n := by
    rcases le_or_lt 0 m with hm | hm
    · exact lt_of_lt_of_le (neg_neg_of_pos hn) (Int.tmod_nonneg n hm)
    · have := Int.tmod_lt_of_pos (-m) hn
      rw [neg_tmod] at this
      omega
  have key : m % n = if 0 ≤ m.tmod n then m.tmod n else n + m.tmod n := by
    split_ifs with h0
    · have hm : m % n = (m.tmod n + n * m.tdiv n) % n := by rw [hdiv]
      rw [hm, Int.add_mul_emod_self_left, Int.emod_eq_of_lt h0 hlt]
    · have hm : m % n = (n + m.tmod n + n * (m.tdiv n - 1)) % n := by congr 1; linarith
      rw [hm, Int.add_mul_emod_self_left, Int.emod_eq_of_lt (by omega) (by omega)]
  simp only [bashArrayGet]
  rw [← key, if_pos (Int.emod_nonneg m hn.ne')]

/-! ## `do_potential_zero_overwrite` -/

/-- What `do_potential_zero_overwrite` does with `${name}.dpot.new`. -/
inductive DpotUpdate
  /-- keeps it -/
  | keep
  /-- echoes the message and replaces it by `table dummy` on `min:step:max` -/
  | overwrite (message : String)
  deriving DecidableEq, Repr

/-- `do_potential_zero_overwrite` at step `step_nr`, for the interaction `name` whose
`inverse.do_potential` is `do_potential`. The error is bash's division by zero, which ends the
script. -/
def doPotentialZeroOverwrite (step_nr : ℤ) (do_potential name : String) :
    Except String DpotUpdate :=
  let scheme := words do_potential
  if scheme.length = 0 then .error "division by 0"
  else
    let scheme_nr := (step_nr - 1).tmod scheme.length
    if bashArrayGet scheme scheme_nr = "0" then .ok (.overwrite s!"Update potential {name} : no")
    else .ok .keep

/-- **The entry read at step `n` is the entry `(n - 1) mod length`** of the scheme, for every
step, step `0` included. -/
theorem doPotentialZeroOverwrite_eq (step_nr : ℤ) (do_potential name : String)
    (h : words do_potential ≠ []) :
    doPotentialZeroOverwrite step_nr do_potential name =
      if (words do_potential).getD ((step_nr - 1) % (words do_potential).length).toNat "" = "0"
      then .ok (.overwrite s!"Update potential {name} : no") else .ok .keep := by
  have hlen : (words do_potential).length ≠ 0 := fun h0 => h (List.length_eq_zero.1 h0)
  simp only [doPotentialZeroOverwrite, if_neg hlen, bashArrayGet_tmod _ h]

/-- Step `0` of the scheme `1 0`, which reads its last entry. -/
theorem doPotentialZeroOverwrite_eq_step0 :
    words "1 0" ≠ [] ∧
      doPotentialZeroOverwrite 0 "1 0" "A-A" =
        if (words "1 0").getD (((0 : ℤ) - 1) % (words "1 0").length).toNat "" = "0"
        then .ok (.overwrite "Update potential A-A : no") else .ok .keep :=
  have h : words "1 0" ≠ [] := by decide
  ⟨h, doPotentialZeroOverwrite_eq 0 "1 0" "A-A" h⟩

/-! ## The topologies of the states -/

/-- The topology path for `state`: `${state}/` and `cg.inverse.iie.topol`, or, when that is
empty, `${state}/` and `cg.inverse.$sim_prog.topol`. -/
def topolState (state iie_topol sim_topol : String) : String :=
  let topol_state := state ++ "/" ++ iie_topol
  if topol_state = "" then state ++ "/" ++ sim_topol else topol_state

/-- What the loop reads of the files: `[[ -f path ]]`, the volume `csg_dump --top` reports,
and `is_num`. -/
structure TopolFiles where
  /-- `[[ -f path ]]` -/
  isFile : String → Bool
  /-- `critical csg_dump --top path | grep 'Volume' | awk '{print $2}'` -/
  volume : String → String
  /-- `is_num` -/
  isNum : String → Bool

/-- The loop `for state in $state_names` of the multistate update and the dc/dh preparation:
the topology and the volume of each state, in order, or the first `die`. -/
def stateTopologies (script : String) (files : TopolFiles) (iie_topol sim_topol : String) :
    List String → Except String (List String × List String)
  | [] => .ok ([], [])
  | state :: states =>
    let topol_state := topolState state iie_topol sim_topol
    if !files.isFile topol_state then
      .error s!"{script}: topol file '{topol_state}' not found, possibly you have to add it to cg.inverse.filelist"
    else
      let volume_state := files.volume topol_state
      if volume_state.isEmpty || !files.isNum volume_state then
        .error s!"could not determine the volume from file {topol_state}"
      else
        (stateTopologies script files iie_topol sim_topol states).map fun r =>
          (topol_state :: r.1, volume_state :: r.2)

/-- **The fallback to the program's topology is dead**: the path always holds `${state}/`. -/
theorem topolState_eq (state iie_topol sim_topol : String) :
    topolState state iie_topol sim_topol = state ++ "/" ++ iie_topol := by
  have h : state ++ "/" ++ iie_topol ≠ "" := fun h => by
    have := congrArg String.length h
    have hslash : "/".length = 1 := rfl
    have hempty : "".length = 0 := rfl
    simp only [String.length_append] at this
    omega
  simp only [topolState, if_neg h]

/-- What the loop asks of a state's topology: a regular file whose volume is a number. -/
def TopolFiles.usable (files : TopolFiles) (topol_state : String) : Bool :=
  files.isFile topol_state && !(files.volume topol_state).isEmpty &&
    files.isNum (files.volume topol_state)

/-- **The loop over the states.** For every list of states it completes exactly when the path
`${state}/` and `cg.inverse.iie.topol` of every state is a regular file with a numeric volume,
and then returns those paths and volumes in order: `cg.inverse.$sim_prog.topol` is never
read. -/
theorem stateTopologies_eq_ok (script : String) (files : TopolFiles)
    (iie_topol sim_topol : String) (states : List String) (r : List String × List String) :
    stateTopologies script files iie_topol sim_topol states = .ok r ↔
      (∀ state ∈ states, files.usable (state ++ "/" ++ iie_topol)) ∧
        r = (states.map (· ++ "/" ++ iie_topol),
          states.map fun state => files.volume (state ++ "/" ++ iie_topol)) := by
  induction states generalizing r with
  | nil =>
    simp only [stateTopologies, List.not_mem_nil, false_imp_iff, implies_true, true_and,
      List.map_nil]
    exact ⟨fun h => (Except.ok.inj h).symm, fun h => h ▸ rfl⟩
  | cons state states ih =>
    -- one state: its topology is usable and the loop goes on
    have hstep : stateTopologies script files iie_topol sim_topol (state :: states) = .ok r ↔
        files.usable (state ++ "/" ++ iie_topol) ∧
          ∃ r', stateTopologies script files iie_topol sim_topol states = .ok r' ∧
            r = ((state ++ "/" ++ iie_topol) :: r'.1,
              files.volume (state ++ "/" ++ iie_topol) :: r'.2) := by
      simp only [stateTopologies, topolState_eq, TopolFiles.usable]
      cases files.isFile (state ++ "/" ++ iie_topol)
      · simp
      cases (files.volume (state ++ "/" ++ iie_topol)).isEmpty
      · cases files.isNum (files.volume (state ++ "/" ++ iie_topol))
        · simp
        cases stateTopologies script files iie_topol sim_topol states <;> simp [Except.map, eq_comm]
      · simp
    rw [hstep, List.forall_mem_cons]
    constructor
    · rintro ⟨hp, r', hr', rfl⟩
      obtain ⟨hall, rfl⟩ := (ih r').1 hr'
      exact ⟨⟨hp, hall⟩, rfl⟩
    · rintro ⟨⟨hp, hall⟩, rfl⟩
      exact ⟨hp, _, (ih _).2 ⟨hall, rfl⟩, rfl⟩

/-- **An empty `cg.inverse.iie.topol` stops the loop at the first state**, on the directory
`${state}/`, wherever a path ending in `/` is not a regular file. -/
theorem stateTopologies_emptyTopol (script : String) (files : TopolFiles) (sim_topol : String)
    (hdir : ∀ p, files.isFile (p ++ "/") = false) (state : String) (states : List String) :
    stateTopologies script files "" sim_topol (state :: states) =
      let topol_state := state ++ "/"
      .error s!"{script}: topol file '{topol_state}' not found, possibly you have to add it to cg.inverse.filelist" := by
  simp only [stateTopologies, topolState_eq, String.append_empty, hdir, Bool.not_false, if_true]

/-! ## The resample-target script -/

/-- The tables of the resample script: the input in the main directory, the output, and the
temporary files `mktemp` makes from `${name}.dist.tgt_resampled.XXXXX`, `_extrapolated_left`,
`_improved` and `_extrapolated`. -/
inductive TableFile
  | input | resampled | extrapolatedLeft | improved | extrapolated | output
  deriving DecidableEq, Repr

/-- The commands the script runs on tables, each with the table it reads and the one it
writes. -/
inductive ResampleCmd
  /-- `csg_resample --in src --out dst --grid min:step:max --comment …` -/
  | csgResample (src dst : TableFile)
  /-- `table extrapolate --function f --avgpoints 1 --region r src dst` -/
  | extrapolate (function region : String) (src dst : TableFile)
  /-- `dist improve_near_core --in=src --out=dst --function=… --gmin=… --gmax=…` -/
  | improveNearCore (src dst : TableFile)
  /-- `dist adjust src dst` -/
  | adjust (src dst : TableFile)
  deriving DecidableEq, Repr

/-- The table a command reads. -/
def ResampleCmd.src : ResampleCmd → TableFile
  | .csgResample src _ | .extrapolate _ _ src _ | .improveNearCore src _ | .adjust src _ => src

/-- The table a command writes. -/
def ResampleCmd.dst : ResampleCmd → TableFile
  | .csgResample _ dst | .extrapolate _ _ _ dst | .improveNearCore _ dst | .adjust _ dst => dst

/-- How the script ends: its help, `die` after the commands it ran with the message, or the
commands it ran. -/
inductive ResampleResult
  | help
  | die (ran : List ResampleCmd) (message : String)
  | run (cmds : List ResampleCmd)
  deriving DecidableEq, Repr

/-- What the script reads besides its arguments. -/
structure ResampleEnv where
  /-- `$(get_main_dir)` -/
  main_dir : String
  /-- `[[ -f ${main_dir}/$input ]]` -/
  inputExists : String → Bool
  /-- the interaction's `bondtype` -/
  tabtype : String
  /-- the interaction's `improve_dist_near_core.target` -/
  improveTarget : String

/-- Where the option loop ends. -/
inductive OptionsEnd
  /-- `show_help; exit 0` -/
  | help
  /-- `die "Unknown option '$1'"` -/
  | unknown (arg : String)
  /-- the loop ends with `do_extrap` and the remaining arguments -/
  | args (do_extrap : Bool) (rest : List String)

/-- `[[ ${1} = --* ]]`. -/
def isLongOption (arg : String) : Bool :=
  ['-', '-'].isPrefixOf arg.toList

/-- The option loop `while [[ ${1} = --* ]]; do case $1 in … esac; done`. -/
def resampleOptions : List String → Bool → OptionsEnd
  | [], do_extrap => .args do_extrap []
  | arg :: rest, do_extrap =>
    if isLongOption arg then
      if arg = "--no-extrap" then resampleOptions rest false
      else if arg = "-h" ∨ arg = "--help" then .help
      else .unknown arg
    else .args do_extrap (arg :: rest)

/-- The extrapolation from `resampled` to `extrapolated` for the interaction's type; an error
carries the commands run before `die` and its message. -/
def extrapolation (script : String) (env : ResampleEnv) :
    Except (List ResampleCmd × String) (List ResampleCmd) :=
  let tabtype := env.tabtype
  let target := env.improveTarget
  if tabtype = "non-bonded" then
    let left := ResampleCmd.extrapolate "linear" "left" .resampled .extrapolatedLeft
    if target = "true" then
      .ok [left, .improveNearCore .extrapolatedLeft .improved,
        .extrapolate "constant" "right" .improved .extrapolated]
    else if target = "false" then
      .ok [left, .extrapolate "constant" "right" .extrapolatedLeft .extrapolated]
    else .error ([left], s!"{script}: improve_dist_near_core.target is {target}. Needs to be 'true' or 'false'")
  else if tabtype = "bond" ∨ tabtype = "angle" ∨ tabtype = "dihedral" then
    .ok [.extrapolate "linear" "leftright" .resampled .extrapolated]
  else .error ([], s!"{script}: Resample of distribution of type {tabtype} is not implemented yet")

/-- The resample-target script `script` run with the arguments `args`. -/
def resampleTarget (script : String) (env : ResampleEnv) (args : List String) : ResampleResult :=
  match resampleOptions args true with
  | .help => .help
  | .unknown arg => .die [] s!"Unknown option '{arg}'"
  | .args do_extrap rest =>
    let input := rest.getD 0 ""
    let output := rest.getD 1 ""
    let main_dir := env.main_dir
    if input = "" ∨ output = "" then .die [] s!"{script}: Missing arguments"
    else if !env.inputExists input then
      .die [] s!"{script}: Could not find input file '{input}' in maindir ({main_dir})"
    else
      let resample := ResampleCmd.csgResample .input .resampled
      if do_extrap then
        match extrapolation script env with
        | .ok cmds => .run (resample :: cmds ++ [.adjust .extrapolated .output])
        | .error (ran, message) => .die (resample :: ran) message
      else .run [resample, .adjust .resampled .output]

theorem isLongOption_noExtrap : isLongOption "--no-extrap" = true := by decide

theorem isLongOption_help : isLongOption "--help" = true := by decide

theorem isLongOption_h : isLongOption "-h" = false := by decide

/-- An argument list is some `--no-extrap` then `--help` when its head is `--help`, or its head
is `--no-extrap` and its tail is such a list. -/
theorem cons_eq_replicate_help (arg : String) (args : List String) :
    (∃ k rest, arg :: args = List.replicate k "--no-extrap" ++ "--help" :: rest) ↔
      arg = "--help" ∨
        arg = "--no-extrap" ∧ ∃ k rest, args = List.replicate k "--no-extrap" ++ "--help" :: rest := by
  constructor
  · rintro ⟨_ | k, rest, h⟩
    · exact .inl (List.cons.inj h).1
    · rw [List.replicate_succ, List.cons_append] at h
      exact .inr ⟨(List.cons.inj h).1, k, rest, (List.cons.inj h).2⟩
  · rintro (rfl | ⟨rfl, k, rest, rfl⟩)
    · exact ⟨0, args, rfl⟩
    · exact ⟨k + 1, rest, rfl⟩

/-- **The option loop ends in help exactly after some `--no-extrap` and a `--help`.** -/
theorem resampleOptions_help (args : List String) (do_extrap : Bool) :
    resampleOptions args do_extrap = .help ↔
      ∃ k rest, args = List.replicate k "--no-extrap" ++ "--help" :: rest := by
  induction args generalizing do_extrap with
  | nil => simp [resampleOptions]
  | cons arg args ih =>
    rw [cons_eq_replicate_help]
    by_cases hn : arg = "--no-extrap"
    · subst hn
      simp [resampleOptions, isLongOption_noExtrap, ih]
    · by_cases hh : arg = "--help"
      · subst hh
        simp [resampleOptions, isLongOption_help]
      · simp only [hn, hh, false_and, or_false, iff_false, resampleOptions]
        by_cases hl : isLongOption arg
        · have hshort : arg ≠ "-h" := by rintro rfl; simp [isLongOption_h] at hl
          simp [hl, hn, hh, hshort]
        · simp [hl]

/-- **The script shows its help exactly for some `--no-extrap` then `--help`**, whatever
follows: `-h`, which the help text offers, never reaches the `case` and is taken for the input
file. -/
theorem resampleTarget_help (script : String) (env : ResampleEnv) (args : List String) :
    resampleTarget script env args = .help ↔
      ∃ k rest, args = List.replicate k "--no-extrap" ++ "--help" :: rest := by
  rw [← resampleOptions_help args true, resampleTarget]
  split
  · simp_all
  · simp_all
  · simp only [*, iff_false, reduceCtorEq, not_false_eq_true]
    split_ifs <;> (try split) <;> simp

end Votca.Csg
