import Votca.Fmatch.Solve

/-!
# `EvalConfiguration`: one frame of the trajectory

For every frame `EvalConfiguration` lets every channel add its rows to `_A` — `EvalBonded`
three `AddToFitMatrix` calls per bead of every interaction of the channel's group,
`EvalNonbonded` three per bead of every neighbour pair, with the pair's unit vector on the
first bead and its opposite on the second — then copies the frame's forces into `_b` and
advances the frame counter `L`. When `L` reaches a multiple of `N_frames` the block is over:
`BlockNum++`, `FmatchAccumulateData()`, `L = 0`, and the fit system is reset.

Both loops write the rows `LeastSQOffset + 3 N L + a N + j` of axis `a` and bead `j`,
computed as an `int` and converted to `size_type` (`frameRow`); below `2^31` that is the row
itself (`frameRow_eq`). The model returns what a frame adds as lists of entries, so the rows a frame
writes can be stated. `L % N_frames` with `N_frames = 0` divides by zero: the model stops
there with `Fault.divisionByZero`.

The lemmas here are the per-call facts the run proofs cite: where a frame's entries lie
(`mem_frameEntries`), what a frame and a block close change and keep (the `@[simp]` field
lemmas), and `EvalConfiguration` as one case split (`evalConfiguration_of_pos`).
-/

namespace Votca

variable {K : Type*}

/-- What stops the engine. -/
inductive Fault
  /-- `L % N_frames` with `N_frames = 0`, or `resSum[i] / BlockNum` with `BlockNum = 0` -/
  | divisionByZero
  /-- `strcpy`/`strcat` into `char file_name[20]` past its end -/
  | bufferOverflow
  /-- `setSplineData(data)` reading past the end of `data` -/
  | outOfRange
  deriving DecidableEq, Repr

/-- `LeastSQOffset + 3 * N * L`, the `int` at which the rows of the current frame start. -/
def frameBase (s : CGForceMatching K) : CInt := (s.LeastSQOffset : CInt) + 3 * (s.N : CInt) * s.L

/-- The row of axis `a` of bead `j` in the current frame: the `int`
`LeastSQOffset + 3 * N * L + a * N + j`, as a `size_type`. -/
def frameRow (s : CGForceMatching K) (a j : ℕ) : ℕ :=
  intIndex (s.LeastSQOffset + 3 * s.N * s.L + a * s.N + j)

/-- The neighbour list `EvalNonbonded` generates, cut off at the channel's `fmatch.max`: over
one bead list when `type1 == type2`, over two otherwise. -/
def NBL (sinfo : SplineInfo K) (conf : Topology K) : List (BeadPair K) :=
  if sinfo.type1 = sinfo.type2 then conf.nbSame sinfo._options.max sinfo.type1
  else conf.nbCross sinfo._options.max sinfo.type1 sinfo.type2

/-- A frame of the topology of `N` beads that `BeginCG` counted: it has the `N` beads the force
loop reads, and every interaction of every group and every pair of every neighbour list names
beads below `N`. -/
structure BeadsIn (N : ℕ) (conf : Topology K) : Prop where
  length_beads : conf.beads.length = N
  interactions : ∀ name, ∀ inter ∈ conf.interactionsInGroup name, ∀ p ∈ inter.beads, p.1 < N
  nbSame : ∀ cutoff t, ∀ pair ∈ conf.nbSame cutoff t, pair.first < N ∧ pair.second < N
  nbCross : ∀ cutoff t1 t2, ∀ pair ∈ conf.nbCross cutoff t1 t2, pair.first < N ∧ pair.second < N

/-- The pairs of a channel's neighbour list have their bead ids below `N`. -/
theorem BeadsIn.NBL {N : ℕ} {conf : Topology K} (h : BeadsIn N conf) (sinfo : SplineInfo K)
    {pair : BeadPair K} (hp : pair ∈ NBL sinfo conf) : pair.first < N ∧ pair.second < N := by
  unfold Votca.NBL at hp
  split_ifs at hp
  exacts [h.nbSame _ _ pair hp, h.nbCross _ _ _ pair hp]

/-! ## The rows of a frame -/

section Rows

variable {s : CGForceMatching K} {conf : Topology K}

/-- The three rows the loops compute for bead `j`, `LeastSQOffset + 3 * N * L + j`, `… + N + j`
and `… + 2 * N + j`, are the frame rows of the three axes. -/
theorem sizeType_frameBase (s : CGForceMatching K) (j : ℕ) :
    sizeType (frameBase s + j) = frameRow s 0 j ∧
      sizeType (frameBase s + s.N + j) = frameRow s 1 j ∧
      sizeType (frameBase s + 2 * s.N + j) = frameRow s 2 j := by
  simp only [frameRow, intIndex, frameBase]
  refine ⟨?_, ?_, ?_⟩ <;> congr 1 <;> push_cast <;> ring

/-- A slot of the frame's block, `(L, a, j)` with `L < N_frames`, `a < 3`, `j < N`, lies in the
block's slice `[LeastSQOffset, LeastSQOffset + 3 N N_frames)`. -/
theorem slot_lt {off N L N_frames a j : ℕ} (hL : L < N_frames) (ha : a < 3) (hj : j < N) :
    off + 3 * N * L + a * N + j < off + 3 * N * N_frames := by
  have haN : a * N ≤ 2 * N := Nat.mul_le_mul_right _ (by omega)
  have hblock : 3 * N * (L + 1) ≤ 3 * N * N_frames := Nat.mul_le_mul_left _ hL
  rw [Nat.mul_succ] at hblock
  omega

/-- **Under `RowsFit` the frame rows do not wrap**: in a frame of the block, the row of axis
`a < 3` of bead `j < N` is `LeastSQOffset + 3 N L + a N + j`. -/
theorem frameRow_eq (hfit : RowsFit s) (hL : s.L < s.N_frames) {a j : ℕ} (ha : a < 3)
    (hj : j < s.N) : frameRow s a j = s.LeastSQOffset + 3 * s.N * s.L + a * s.N + j :=
  intIndex_of_lt ((slot_lt hL ha hj).trans hfit)

/-- **Frame rows stay in the frame's slice**: under `RowsFit`, with `L < N_frames`, axis
`a < 3` and bead `j < N`, the row lies in `[LeastSQOffset, LeastSQOffset + 3 N N_frames)`. -/
theorem frameRow_mem (hfit : RowsFit s) (hL : s.L < s.N_frames) {a j : ℕ} (ha : a < 3)
    (hj : j < s.N) :
    s.LeastSQOffset ≤ frameRow s a j ∧
      frameRow s a j < s.LeastSQOffset + 3 * s.N * s.N_frames := by
  rw [frameRow_eq hfit hL ha hj]
  exact ⟨by omega, slot_lt hL ha hj⟩

/-- **Distinct frame slots, distinct rows**: `(L, a, j) ↦ off + 3 N L + a N + j` is injective
on `a < 3`, `j < N`. -/
theorem slot_inj {off N L L' a a' j j' : ℕ} (ha : a < 3) (ha' : a' < 3) (hj : j < N)
    (hj' : j' < N) (h : off + 3 * N * L + a * N + j = off + 3 * N * L' + a' * N + j') :
    L = L' ∧ a = a' ∧ j = j' := by
  have hrow : ∀ L a j : ℕ, 3 * N * L + a * N + j = (3 * L + a) * N + j := fun L a j => by
    rw [Nat.add_mul, Nat.mul_right_comm]
  have h' : (3 * L + a) * N + j = (3 * L' + a') * N + j' := by
    rw [← hrow, ← hrow]
    omega
  have hjj : j = j' := by
    have := congrArg (· % N) h'
    simpa [Nat.add_mod, Nat.mod_eq_of_lt hj, Nat.mod_eq_of_lt hj'] using this
  have hq : 3 * L + a = 3 * L' + a' :=
    Nat.eq_of_mul_eq_mul_right (by omega) (by omega : (3 * L + a) * N = (3 * L' + a') * N)
  omega

/-- `slot_inj` for the rows of two states of one setup, both in a frame of their block. -/
theorem frameRow_inj {s' : CGForceMatching K} (hfit : RowsFit s) (hfit' : RowsFit s')
    (hL : s.L < s.N_frames) (hL' : s'.L < s'.N_frames) (hoff : s.LeastSQOffset = s'.LeastSQOffset)
    (hN : s.N = s'.N) {a a' j j' : ℕ} (ha : a < 3) (ha' : a' < 3) (hj : j < s.N)
    (hj' : j' < s.N) (h : frameRow s a j = frameRow s' a' j') :
    s.L = s'.L ∧ a = a' ∧ j = j' := by
  rw [frameRow_eq hfit hL ha hj, frameRow_eq hfit' hL' ha' (hN ▸ hj'), ← hoff, ← hN] at h
  exact slot_inj ha ha' hj hj' h

/-- Within one frame, the row determines axis and bead. -/
theorem frameRow_eq_iff (hfit : RowsFit s) (hL : s.L < s.N_frames) {a a' j j' : ℕ} (ha : a < 3)
    (ha' : a' < 3) (hj : j < s.N) (hj' : j' < s.N) :
    frameRow s a j = frameRow s a' j' ↔ a = a' ∧ j = j' :=
  ⟨fun h => (frameRow_inj hfit hfit hL hL rfl rfl ha ha' hj hj' h).2, fun ⟨h1, h2⟩ => h1 ▸ h2 ▸ rfl⟩

variable [Zero K]

/-- The force loop: the rows `x`, `y`, `z` of bead `iatom` of `_b` get `getF(iatom)`. -/
def forceEntries (s : CGForceMatching K) (conf : Topology K) : List (ℕ × K) :=
  (List.range s.N).flatMap fun iatom =>
    let Force := conf.getF iatom
    [(sizeType (frameBase s + iatom), Force.x),
      (sizeType (frameBase s + s.N + iatom), Force.y),
      (sizeType (frameBase s + 2 * s.N + iatom), Force.z)]

/-- **What a frame writes into `_b`**: the force loop assigns the row `frameRow s a j` the
component `a` of bead `j`'s force, for `a < 3`, `j < N`. -/
theorem eq_of_mem_forceEntries {p : ℕ × K} (hp : p ∈ forceEntries s conf) :
    ∃ a : Fin 3, ∃ j < s.N, p = (frameRow s a j, (conf.getF j).get a) := by
  simp only [forceEntries, List.mem_flatMap, List.mem_range, List.mem_cons,
    List.not_mem_nil, or_false, sizeType_frameBase] at hp
  obtain ⟨j, hj, rfl | rfl | rfl⟩ := hp
  exacts [⟨0, j, hj, by simp [Vec3.get]⟩, ⟨1, j, hj, by simp [Vec3.get]⟩,
    ⟨2, j, hj, by simp [Vec3.get]⟩]

/-- **Where a frame writes `_b`**: the force loop writes the rows `frameRow s a j`, `a < 3`,
`j < N`. -/
theorem mem_forceEntries {p : ℕ × K} (hp : p ∈ forceEntries s conf) :
    ∃ a < 3, ∃ j < s.N, p.1 = frameRow s a j := by
  obtain ⟨a, j, hj, rfl⟩ := eq_of_mem_forceEntries hp
  exact ⟨a, a.isLt, j, hj, rfl⟩

/-- The force loop sets the row of axis `a` of bead `j` to the force on the bead, when the
rows of the frame do not wrap. -/
theorem forceEntries_entry (hfit : RowsFit s) (hL : s.L < s.N_frames) (v : UVector K) (a : Fin 3)
    {j : ℕ} (hj : j < s.N) :
    (v.setEntries (forceEntries s conf)).entry (frameRow s a j) = (conf.getF j).get a := by
  refine v.setEntries_entry_of_unique _ ⟨(frameRow s a j, (conf.getF j).get a), ?_, rfl⟩ ?_
  · simp only [forceEntries, List.mem_flatMap, List.mem_range, sizeType_frameBase]
    exact ⟨j, hj, by fin_cases a <;> simp [Vec3.get]⟩
  · intro p hp hrow
    obtain ⟨a', j', hj', rfl⟩ := eq_of_mem_forceEntries hp
    obtain ⟨ha, rfl⟩ := (frameRow_eq_iff hfit hL a'.isLt a.isLt hj' hj).1 hrow
    rw [Fin.ext ha]

end Rows

section Frame

variable [Field K]

/-! ## The channel loops -/

/-- The three `AddToFitMatrix` calls for bead `ii`: its rows `x`, `y`, `z` of the current
frame, scaled by the components of `gradient`. -/
def addBead (s : CGForceMatching K) (SP : CubicSpline K) (var : K) (ii mpos : ℕ)
    (gradient : Vec3 K) : List (Entry K) :=
  SP.addToFitMatrix var (sizeType (frameBase s + ii)) mpos gradient.x ++
    SP.addToFitMatrix var (sizeType (frameBase s + s.N + ii)) mpos gradient.y ++
    SP.addToFitMatrix var (sizeType (frameBase s + 2 * s.N + ii)) mpos gradient.z

/-- `EvalBonded(conf, sinfo)`: for every interaction of the channel's group and every bead of
it, the bead's rows with the interaction's gradient at that bead. -/
def evalBonded (s : CGForceMatching K) (conf : Topology K) (sinfo : SplineInfo K) :
    List (Entry K) :=
  (conf.interactionsInGroup sinfo.splineName).flatMap fun inter =>
    inter.beads.flatMap fun p => addBead s sinfo.Spline inter.var p.1 sinfo.matr_pos p.2

/-- `EvalNonbonded(conf, sinfo)`: for every pair, the normalised separation on the first bead
and its opposite on the second, at the pair's distance. -/
def evalNonbonded (sqrt : K → K) (s : CGForceMatching K) (conf : Topology K)
    (sinfo : SplineInfo K) : List (Entry K) :=
  (NBL sinfo conf).flatMap fun pair =>
    let gradient := pair.r.normalize sqrt
    addBead s sinfo.Spline pair.dist pair.first sinfo.matr_pos gradient ++
      addBead s sinfo.Spline pair.dist pair.second sinfo.matr_pos gradient.neg

/-- The entries all channels add to `_A` in one frame, in the order of `Splines`. -/
def frameEntries (sqrt : K → K) (s : CGForceMatching K) (conf : Topology K) : List (Entry K) :=
  s.Splines.flatMap fun sinfo =>
    if sinfo.bonded then evalBonded s conf sinfo else evalNonbonded sqrt s conf sinfo

/-! ## A frame and a block -/

/-- One frame up to the block check: every channel's rows, the forces if the frame has them
(otherwise only an error message), and `L += 1`. -/
def sampleFrame (lib : Numerics K) (s : CGForceMatching K) (conf : Topology K) :
    CGForceMatching K :=
  { s with
    _A := s._A.addEntries (frameEntries lib.sqrt s conf)
    _b := if conf.hasF then s._b.setEntries (forceEntries s conf) else s._b
    L := s.L + 1 }

/-- The end of a block: `BlockNum++`, `FmatchAccumulateData()`, `L = 0`, then the reset —
constrained: clear `_A` and `_b` and rewrite `B_constr`; simple: rewrite `_A`, clear `_b`. -/
def closeBlock (lib : Numerics K) (s : CGForceMatching K) : CGForceMatching K :=
  let s := fmatchAccumulateData lib { s with BlockNum := s.BlockNum + 1 }
  if s.ConstrLeastSQ then
    { s with L := 0, _A := s._A.clear, _b := s._b.clear
             B_constr := fmatchAssignSmoothCondsToMatrix s.Splines s.B_constr }
  else
    { s with L := 0, _A := fmatchAssignSmoothCondsToMatrix s.Splines s._A, _b := s._b.clear }

/-- `EvalConfiguration(conf, conf_atom)`. -/
def evalConfiguration (lib : Numerics K) (s : CGForceMatching K) (conf : Topology K) :
    Except Fault (CGForceMatching K) :=
  let s := sampleFrame lib s conf
  if s.N_frames = 0 then .error .divisionByZero
  else if s.L % s.N_frames = 0 then .ok (closeBlock lib s) else .ok s

/-! ## What a frame writes -/

variable {lib : Numerics K} {s : CGForceMatching K} {conf : Topology K}

/-- Every entry of `addBead` lies on one of bead `ii`'s rows and in the spline's block. -/
theorem mem_addBead {SP : CubicSpline K} {var : K} {ii mpos : ℕ} {g : Vec3 K} {e : Entry K}
    (h : e ∈ addBead s SP var ii mpos g) :
    (∃ a < 3, e.row = frameRow s a ii) ∧ mpos ≤ e.col ∧ e.col < mpos + 2 * SP.size := by
  simp only [addBead, List.mem_append] at h
  rcases h with (h | h) | h <;> refine ⟨?_, SP.addToFitMatrix_col h⟩ <;>
    rw [SP.addToFitMatrix_row h]
  exacts [⟨0, by omega, (sizeType_frameBase s ii).1⟩, ⟨1, by omega, (sizeType_frameBase s ii).2.1⟩,
    ⟨2, by omega, (sizeType_frameBase s ii).2.2⟩]

/-- **Where a frame writes `_A`**: when the frame's bead ids are below `N`, every entry lies on
a row `frameRow s a j` with `a < 3`, `j < N`, and in the column block of one channel. -/
theorem mem_frameEntries (hbeads : BeadsIn s.N conf) {e : Entry K}
    (he : e ∈ frameEntries lib.sqrt s conf) :
    (∃ a < 3, ∃ j < s.N, e.row = frameRow s a j) ∧
      ∃ sp ∈ s.Splines, sp.matr_pos ≤ e.col ∧ e.col < sp.matr_pos + 2 * sp.Spline.size := by
  simp only [frameEntries, List.mem_flatMap] at he
  obtain ⟨sp, hsp, he⟩ := he
  split_ifs at he
  · simp only [evalBonded, List.mem_flatMap] at he
    obtain ⟨inter, hi, p, hp, he⟩ := he
    obtain ⟨⟨a, ha, hrow⟩, hcol⟩ := mem_addBead he
    exact ⟨⟨a, ha, p.1, hbeads.interactions _ inter hi p hp, hrow⟩, sp, hsp, hcol⟩
  · simp only [evalNonbonded, List.mem_flatMap, List.mem_append] at he
    obtain ⟨pair, hpair, he | he⟩ := he
    · obtain ⟨⟨a, ha, hrow⟩, hcol⟩ := mem_addBead he
      exact ⟨⟨a, ha, pair.first, (hbeads.NBL sp hpair).1, hrow⟩, sp, hsp, hcol⟩
    · obtain ⟨⟨a, ha, hrow⟩, hcol⟩ := mem_addBead he
      exact ⟨⟨a, ha, pair.second, (hbeads.NBL sp hpair).2, hrow⟩, sp, hsp, hcol⟩

/-! ## What a frame and a block close keep -/

@[simp] theorem sampleFrame_L : (sampleFrame lib s conf).L = s.L + 1 := rfl
@[simp] theorem sampleFrame_N : (sampleFrame lib s conf).N = s.N := rfl
@[simp] theorem sampleFrame_N_frames : (sampleFrame lib s conf).N_frames = s.N_frames := rfl
@[simp] theorem sampleFrame_BlockNum : (sampleFrame lib s conf).BlockNum = s.BlockNum := rfl
@[simp] theorem sampleFrame_LeastSQOffset :
    (sampleFrame lib s conf).LeastSQOffset = s.LeastSQOffset := rfl
@[simp] theorem sampleFrame_ConstrLeastSQ :
    (sampleFrame lib s conf).ConstrLeastSQ = s.ConstrLeastSQ := rfl
@[simp] theorem sampleFrame_line_cntr : (sampleFrame lib s conf).line_cntr = s.line_cntr := rfl
@[simp] theorem sampleFrame_col_cntr : (sampleFrame lib s conf).col_cntr = s.col_cntr := rfl
@[simp] theorem sampleFrame_Splines : (sampleFrame lib s conf).Splines = s.Splines := rfl
@[simp] theorem sampleFrame_x : (sampleFrame lib s conf)._x = s._x := rfl
@[simp] theorem sampleFrame_B_constr : (sampleFrame lib s conf).B_constr = s.B_constr := rfl
@[simp] theorem sampleFrame_A : (sampleFrame lib s conf)._A =
    s._A.addEntries (frameEntries lib.sqrt s conf) := rfl
@[simp] theorem sampleFrame_b_size : (sampleFrame lib s conf)._b.size = s._b.size := by
  by_cases h : conf.hasF <;> simp [sampleFrame, h]

section CloseBlock

variable (lib : Numerics K) (s : CGForceMatching K)

@[simp] theorem closeBlock_L : (closeBlock lib s).L = 0 := by
  unfold closeBlock; dsimp only; split <;> rfl
@[simp] theorem closeBlock_BlockNum : (closeBlock lib s).BlockNum = s.BlockNum + 1 := by
  unfold closeBlock; dsimp only; split <;> rfl
@[simp] theorem closeBlock_N : (closeBlock lib s).N = s.N := by
  unfold closeBlock; dsimp only; split <;> rfl
@[simp] theorem closeBlock_N_frames : (closeBlock lib s).N_frames = s.N_frames := by
  unfold closeBlock; dsimp only; split <;> rfl
@[simp] theorem closeBlock_LeastSQOffset :
    (closeBlock lib s).LeastSQOffset = s.LeastSQOffset := by
  unfold closeBlock; dsimp only; split <;> rfl
@[simp] theorem closeBlock_ConstrLeastSQ :
    (closeBlock lib s).ConstrLeastSQ = s.ConstrLeastSQ := by
  unfold closeBlock; dsimp only; split <;> rfl
@[simp] theorem closeBlock_line_cntr : (closeBlock lib s).line_cntr = s.line_cntr := by
  unfold closeBlock; dsimp only; split <;> rfl
@[simp] theorem closeBlock_col_cntr : (closeBlock lib s).col_cntr = s.col_cntr := by
  unfold closeBlock; dsimp only; split <;> rfl
@[simp] theorem closeBlock_x : (closeBlock lib s)._x =
    (fmatchAccumulateData lib { s with BlockNum := s.BlockNum + 1 })._x := by
  unfold closeBlock; dsimp only; split <;> rfl
@[simp] theorem closeBlock_Splines : (closeBlock lib s).Splines =
    s.Splines.map (accumulateSpline (closeBlock lib s)._x) := by
  unfold closeBlock; dsimp only; split <;> rfl
@[simp] theorem closeBlock_A_size1 : (closeBlock lib s)._A.size1 = s._A.size1 := by
  unfold closeBlock; dsimp only; split <;> simp
@[simp] theorem closeBlock_b_size : (closeBlock lib s)._b.size = s._b.size := by
  unfold closeBlock; dsimp only; split <;> rfl

theorem closeBlock_A_size2 (hA : s._A.size2 = s.col_cntr) :
    (closeBlock lib s)._A.size2 = s.col_cntr := by
  have := fmatchAccumulateData_A_size2 lib { s with BlockNum := s.BlockNum + 1 } hA
  unfold closeBlock; dsimp only; split <;> simpa using this

theorem closeBlock_x_size (hx : s._x.size = s.col_cntr) :
    (closeBlock lib s)._x.size = s.col_cntr := by
  simpa using fmatchAccumulateData_x_size lib { s with BlockNum := s.BlockNum + 1 } hx

theorem closeBlock_B_constr_size (h : s.ConstrLeastSQ) :
    (closeBlock lib s).B_constr.size1 = s.B_constr.size1 ∧
      (closeBlock lib s).B_constr.size2 = s.B_constr.size2 := by
  simp only [closeBlock, fmatchAccumulateData]
  simp [h]

end CloseBlock

@[simp] theorem rowsFit_sampleFrame : RowsFit (sampleFrame lib s conf) ↔ RowsFit s := Iff.rfl

@[simp] theorem rowsFit_closeBlock : RowsFit (closeBlock lib s) ↔ RowsFit s := by
  simp [RowsFit]

/-! ## One call -/

/-- **One frame**: with `N_frames ≥ 1`, `EvalConfiguration` samples the frame and closes the
block exactly when `L + 1` is a multiple of `N_frames`. -/
theorem evalConfiguration_of_pos (h : 0 < s.N_frames) :
    evalConfiguration lib s conf = .ok (if (s.L + 1) % s.N_frames = 0 then
      closeBlock lib (sampleFrame lib s conf) else sampleFrame lib s conf) := by
  simp only [evalConfiguration, sampleFrame_N_frames, sampleFrame_L, if_neg h.ne']
  split_ifs <;> rfl

/-- **What a call can do**: a call that returns samples the frame, and may close the block. -/
theorem evalConfiguration_ok {s' : CGForceMatching K}
    (h : evalConfiguration lib s conf = .ok s') :
    s' = closeBlock lib (sampleFrame lib s conf) ∨ s' = sampleFrame lib s conf := by
  simp only [evalConfiguration] at h
  split_ifs at h <;> cases h
  exacts [.inl rfl, .inr rfl]

end Frame

end Votca
