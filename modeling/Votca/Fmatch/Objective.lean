import Votca.Fmatch.FitSystem
import Votca.Fmatch.NullSpace

/-!
# The fit of a block is the force-matching fit

`FitSystem` reads the rows of a block's system one at a time; this module reads the system
whole. The smoothness conditions `FmatchAssignSmoothCondsToMatrix` writes depend neither on the
matrix it is handed (it clears it first) nor on the statistics of the channels: they are one
matrix, `smoothMatrix`. In simple mode every state a block passes through keeps that matrix,
with zero targets, in the rows above `LeastSQOffset` (`SmoothRows`), and the frames' force rows
below them; so the residual of a block's system is the smoothness penalty plus the squared
error of the model forces against the observed ones (`residual_blockSystem_simple`). In
constrained mode `B_constr` is `smoothMatrix` itself (`blockSystem_B_constr`) and, from the
second block on, the system is the force rows alone (`residual_blockSystem_constrained`).

With GSL's routines doing what they promise, the coefficients of every block then minimise the
force-matching objective: in simple mode the penalised objective, in constrained mode the error
over the coefficient vectors that meet the smoothness conditions exactly.

Both residuals rest on `forceRows_sum`, which regroups the `3 N N_frames` force rows by frame,
axis and bead and reads each off `EncodesBlock`.
-/

namespace Votca

open Finset

variable {K : Type*}

section Field

variable [Field K]

/-! ## The force-matching objective -/

/-- The smoothness conditions of the channels as one matrix of `line_cntr` rows and `col_cntr`
columns: what `FmatchAssignSmoothCondsToMatrix` writes into a cleared matrix of that shape, as
`BeginCG` does for `B_constr`. -/
def smoothMatrix (Splines : List (SplineInfo K)) : UMatrix K :=
  fmatchAssignSmoothCondsToMatrix Splines
    (UMatrix.zero (totalKnots Splines) (2 * totalKnots Splines))

/-- `‖S c‖²`, the penalty of the smoothness conditions `S` on the coefficients `c`. -/
def smoothPenalty (Splines : List (SplineInfo K)) (c : ℕ → K) : K :=
  ∑ r ∈ range (totalKnots Splines), (smoothMatrix Splines).mulVec c r ^ 2

/-- The squared error of the model forces against the observed ones, over every frame, axis
and bead: what force matching minimises. -/
def forceError (sqrt : K → K) (Splines : List (SplineInfo K)) (N : ℕ)
    (frames : List (Topology K)) (c : ℕ → K) : K :=
  (frames.map fun conf => ∑ a : Fin 3, ∑ j ∈ range N,
    (modelForce sqrt Splines conf j a c - (conf.getF j).get a) ^ 2).sum

@[simp] theorem smoothMatrix_size1 (Splines : List (SplineInfo K)) :
    (smoothMatrix Splines).size1 = totalKnots Splines := by
  simp [smoothMatrix, UMatrix.zero]
@[simp] theorem smoothMatrix_size2 (Splines : List (SplineInfo K)) :
    (smoothMatrix Splines).size2 = 2 * totalKnots Splines := by
  simp [smoothMatrix, UMatrix.zero]

/-! ## The smoothness conditions -/

omit [Field K] in
theorem UMatrix.eq_of_entry_eq {M M' : UMatrix K} (h1 : M.size1 = M'.size1)
    (h2 : M.size2 = M'.size2) (he : M.entry = M'.entry) : M = M' := by
  cases M
  cases M'
  simp_all

omit [Field K] in
theorem addBCToFitMatrix_entry_congr (sp : CubicSpline K) {M M' : UMatrix K}
    (h : M.entry = M'.entry) (o1 o2 : ℕ) :
    (sp.addBCToFitMatrix M o1 o2).entry = (sp.addBCToFitMatrix M' o1 o2).entry := by
  simp only [CubicSpline.addBCToFitMatrix]
  induction sp.bc generalizing M M' with
  | nil => exact h
  | cons e l ih => exact ih (by simp only [UMatrix.set, h])

/-- **The smoothness rows do not depend on the matrix**: `FmatchAssignSmoothCondsToMatrix`
clears it first. -/
theorem fmatchAssignSmoothCondsToMatrix_entry_congr (Splines : List (SplineInfo K))
    (M M' : UMatrix K) :
    (fmatchAssignSmoothCondsToMatrix Splines M).entry =
      (fmatchAssignSmoothCondsToMatrix Splines M').entry := by
  simp only [fmatchAssignSmoothCondsToMatrix]
  generalize (0, 0) = p
  have hM : M.clear.entry = M'.clear.entry := rfl
  generalize M.clear = A at hM ⊢
  generalize M'.clear = A' at hM ⊢
  induction Splines generalizing A A' p with
  | nil => exact hM
  | cons sp l ih => exact ih _ _ _ (addBCToFitMatrix_entry_congr sp.Spline hM _ _)

@[simp] theorem accumulateBlocks_Spline (sp : SplineInfo K) (xs : List (UVector K)) :
    (accumulateBlocks sp xs).Spline = sp.Spline := by
  induction xs generalizing sp <;> simp_all

section Map

variable (g : SplineInfo K → SplineInfo K) (hS : ∀ sp, (g sp).Spline = sp.Spline)
  (hk : ∀ sp, (g sp).knots = sp.knots)
include hk

omit [Field K] in
theorem totalKnots_map (Splines : List (SplineInfo K)) :
    totalKnots (Splines.map g) = totalKnots Splines := by
  simp [totalKnots, Function.comp_def, hk]

include hS

/-- **The smoothness conditions ignore the statistics**: a map of the channels that keeps every
grid and size keeps `smoothMatrix`. -/
theorem smoothMatrix_map (Splines : List (SplineInfo K)) :
    smoothMatrix (Splines.map g) = smoothMatrix Splines := by
  simp only [smoothMatrix, totalKnots_map g hk, fmatchAssignSmoothCondsToMatrix, List.foldl_map,
    hS, hk]

end Map

/-- Any matrix of `col_cntr` columns, once `FmatchAssignSmoothCondsToMatrix` has written it,
acts on every row as `smoothMatrix`. -/
theorem mulVec_fmatchAssignSmoothCondsToMatrix {Splines : List (SplineInfo K)} {M : UMatrix K}
    (hM : M.size2 = 2 * totalKnots Splines) (c : ℕ → K) (r : ℕ) :
    (fmatchAssignSmoothCondsToMatrix Splines M).mulVec c r = (smoothMatrix Splines).mulVec c r := by
  rw [UMatrix.mulVec, UMatrix.mulVec, fmatchAssignSmoothCondsToMatrix_size2, hM,
    smoothMatrix_size2, smoothMatrix, fmatchAssignSmoothCondsToMatrix_entry_congr Splines M]

/-! ## The smoothness rows of simple mode -/

/-- Above `LeastSQOffset`, `_A` acts as `smoothMatrix` and `_b` holds zeros: the smoothness
conditions of simple least squares, with target `0`. -/
def SmoothRows (s : CGForceMatching K) : Prop :=
  ∀ r < s.LeastSQOffset, (∀ c, s._A.mulVec c r = (smoothMatrix s.Splines).mulVec c r) ∧
    s._b.entry r = 0

section SmoothRows

variable {lib : Numerics K} {s : CGForceMatching K}

/-- A matrix `FmatchAssignSmoothCondsToMatrix` has just written, with a cleared `_b`, holds the
smoothness rows. -/
theorem Dims.smoothRows (hd : Dims s) {M : UMatrix K}
    (hA : s._A = fmatchAssignSmoothCondsToMatrix s.Splines M) (hb : ∀ r, s._b.entry r = 0) :
    SmoothRows s := by
  refine fun r _ => ⟨fun c => ?_, hb r⟩
  have hM : M.size2 = 2 * totalKnots s.Splines := by
    rw [← fmatchAssignSmoothCondsToMatrix_size2 s.Splines M, ← hA, hd.A_size2, hd.col_cntr_eq,
      hd.line_cntr_eq]
  rw [hA, mulVec_fmatchAssignSmoothCondsToMatrix hM]

/-- A frame inside its block, whose rows do not wrap, writes from `LeastSQOffset` on only. -/
theorem SmoothRows.sampleFrame {conf : Topology K} (h : SmoothRows s) (hfit : RowsFit s)
    (hL : s.L < s.N_frames) (hb : BeadsIn s.N conf) : SmoothRows (sampleFrame lib s conf) := by
  intro r hr
  simp only [sampleFrame_LeastSQOffset] at hr
  have hne : ∀ a < 3, ∀ j < s.N, frameRow s a j ≠ r := fun a ha j hj => by
    have := (frameRow_mem hfit hL ha hj).1
    omega
  refine ⟨fun c => ?_, ?_⟩
  · rw [sampleFrame_A, mulVec_addEntries_eq, sampleFrame_Splines, rowDot_eq_zero fun e he => ?_,
      add_zero]
    · exact (h r hr).1 c
    · obtain ⟨a, ha, j, hj, hrow⟩ := (mem_frameEntries hb he).1
      exact hrow ▸ hne a ha j hj
  · simp only [Votca.sampleFrame]
    split_ifs
    · rw [UVector.setEntries_entry_of_forall_ne _ _ fun p hp => ?_]
      · exact (h r hr).2
      · obtain ⟨a, ha, j, hj, hrow⟩ := mem_forceEntries hp
        exact hrow ▸ hne a ha j hj
    · exact (h r hr).2

theorem SmoothRows.sampleFrames (h : SmoothRows s) (hfit : RowsFit s) {confs : List (Topology K)}
    (hlen : s.L + confs.length ≤ s.N_frames) (hb : ∀ conf ∈ confs, BeadsIn s.N conf) :
    SmoothRows (sampleFrames lib s confs) := by
  induction confs generalizing s with
  | nil => exact h
  | cons conf confs ih =>
    simp only [List.forall_mem_cons] at hb
    simp only [List.length_cons] at hlen
    exact ih (h.sampleFrame hfit (by omega) hb.1) hfit (by simp; omega) (by simpa using hb.2)

/-- In simple mode every close writes the smoothness rows afresh and clears `_b`. -/
theorem closeBlock_smoothRows (hd : Dims s) (hc : s.ConstrLeastSQ = false) :
    SmoothRows (closeBlock lib s) :=
  Dims.smoothRows hd.closeBlock
    (M := (fmatchAccumulateData lib { s with BlockNum := s.BlockNum + 1 })._A)
    (by simp [closeBlock, fmatchAccumulateData, hc])
    (fun r => by simp [closeBlock, fmatchAccumulateData, hc])

variable (opts : Options K) (G : K → K → K → CubicSpline K) (BeadCount : ℕ)
  (staleA : ℕ → ℕ → K) (staleb : ℕ → K)

/-- In simple mode `BeginCG` writes the smoothness rows and clears `_b`. -/
theorem beginCG_smoothRows (h : opts.constrainedLS = false) :
    SmoothRows (beginCG opts G BeadCount staleA staleb) :=
  Dims.smoothRows (dims_beginCG opts G BeadCount staleA staleb)
    (M := UMatrix.resize (sizeType (((registerAll G opts).2.1 : CInt) + 3 * (BeadCount : CInt) *
      (opts.frames_per_block : CInt))) (registerAll G opts).2.2 staleA) (by simp [beginCG, h])
    (fun r => by simp [beginCG, h, UVector.clear])

end SmoothRows

/-! ## `B_constr` in constrained mode -/

section Constr

variable {lib : Numerics K} {s : CGForceMatching K} {confs : List (Topology K)}

theorem totalKnots_afterBlocks (k : ℕ) :
    totalKnots (afterBlocks lib k s confs).Splines = totalKnots s.Splines := by
  rw [afterBlocks_Splines, totalKnots_map _ fun sp => accumulateBlocks_knots sp _]

/-- The smoothness conditions are the same after any number of blocks. -/
theorem smoothMatrix_afterBlocks (k : ℕ) :
    smoothMatrix (afterBlocks lib k s confs).Splines = smoothMatrix s.Splines := by
  rw [afterBlocks_Splines, smoothMatrix_map _ (fun sp => accumulateBlocks_Spline sp _)
    fun sp => accumulateBlocks_knots sp _]

@[simp] theorem blockSystem_ConstrLeastSQ (k : ℕ) :
    (blockSystem lib s confs k).ConstrLeastSQ = s.ConstrLeastSQ := by
  simp [blockSystem]

theorem blockSystem_line_cntr (hd : Dims s) (k : ℕ) :
    (blockSystem lib s confs k).line_cntr = totalKnots s.Splines := by
  have hdS : Dims (blockSystem lib s confs k) := (hd.afterBlocks k confs).sampleFrames _
  rw [hdS.line_cntr_eq, blockSystem, sampleFrames_Splines, totalKnots_afterBlocks]

/-- A `B_constr` that `FmatchAssignSmoothCondsToMatrix` has written, of the invariant's shape,
is `smoothMatrix`. -/
theorem Dims.B_constr_eq (hd : Dims s) (hc : s.ConstrLeastSQ = true) {M : UMatrix K}
    (hB : s.B_constr = fmatchAssignSmoothCondsToMatrix s.Splines M) :
    s.B_constr = smoothMatrix s.Splines := by
  obtain ⟨h1, h2⟩ := hd.B_constr_size hc
  refine UMatrix.eq_of_entry_eq ?_ ?_
    (by rw [hB]; exact fmatchAssignSmoothCondsToMatrix_entry_congr _ _ _)
  · rw [h1, hd.line_cntr_eq, smoothMatrix_size1]
  · rw [h2, hd.col_cntr_eq, hd.line_cntr_eq, smoothMatrix_size2]

theorem sampleFrames_B_constr (confs : List (Topology K)) :
    (sampleFrames lib s confs).B_constr = s.B_constr :=
  sampleFrames_keep (·.B_constr) (fun _ _ => rfl) s confs

/-- **`B_constr` is the smoothness matrix in every block**: in constrained mode, if it is when
the run starts, the system of every block has `B_constr = smoothMatrix` of the channels. -/
theorem blockSystem_B_constr (hd : Dims s) (hc : s.ConstrLeastSQ = true)
    (h0 : s.B_constr = smoothMatrix s.Splines) (k : ℕ) :
    (blockSystem lib s confs k).B_constr = smoothMatrix s.Splines := by
  rw [blockSystem, sampleFrames_B_constr, ← smoothMatrix_afterBlocks k]
  cases k with
  | zero => exact h0
  | succ k =>
    have hdS : Dims (blockSystem lib s confs k) := (hd.afterBlocks k confs).sampleFrames _
    have hcS : (blockSystem lib s confs k).ConstrLeastSQ = true := by simpa using hc
    rw [← closeBlock_blockSystem]
    refine hdS.closeBlock.B_constr_eq (by simpa using hcS)
      (M := (blockSystem lib s confs k).B_constr) ?_
    simp [closeBlock, fmatchAccumulateData, hc]

variable (opts : Options K) (G : K → K → K → CubicSpline K) (BeadCount : ℕ)
  (staleA : ℕ → ℕ → K) (staleb : ℕ → K)

/-- In constrained mode `BeginCG` writes the smoothness conditions into `B_constr`. -/
theorem beginCG_B_constr (h : opts.constrainedLS = true) :
    (beginCG opts G BeadCount staleA staleb).B_constr = smoothMatrix (registerAll G opts).1 := by
  rw [← beginCG_Splines opts G BeadCount staleA staleb]
  exact (dims_beginCG opts G BeadCount staleA staleb).B_constr_eq (by simpa using h)
    (M := UMatrix.zero (registerAll G opts).2.1 (registerAll G opts).2.2) (by simp [beginCG, h])

end Constr

/-! ## The residual of a block's system -/

/-- Splitting a sum over `range (c n)` into `c` windows of width `n`. -/
theorem sum_range_mul_windows {M : Type*} [AddCommMonoid M] (f : ℕ → M) (c n : ℕ) :
    ∑ m ∈ range (c * n), f m = ∑ i ∈ range c, ∑ j ∈ range n, f (i * n + j) := by
  induction c with
  | zero => simp
  | succ c ih => rw [Nat.succ_mul, sum_range_add, ih, sum_range_succ]

omit [Field K] in
theorem length_block {confs : List (Topology K)} {k n : ℕ} (h : (k + 1) * n ≤ confs.length) :
    ((confs.drop (k * n)).take n).length = n := by
  rw [Nat.add_mul, one_mul] at h
  simp only [List.length_take, List.length_drop]
  omega

/-- Only the coefficients of `_A`'s columns enter the residual. -/
theorem residual_congr (M : UMatrix K) (b : UVector K) {v v' : ℕ → K}
    (h : ∀ j < M.size2, v j = v' j) : residual M b v = residual M b v' :=
  sum_congr rfl fun i _ => by rw [UMatrix.mulVec_congr M h i]

section Blocks

variable {lib : Numerics K} {s : CGForceMatching K} {confs : List (Topology K)}

/-- **The force rows of a block's system are the force-matching error**: when the block starts
from clear force rows and all its frames have forces, the squared residuals of its
`3 N N_frames` force rows add up to `forceError` of its frames. -/
theorem forceRows_sum (hd : Dims s) (hL : s.L = 0) (hfit : RowsFit s)
    (hbeads : ∀ conf ∈ confs, BeadsIn s.N conf)
    (hF : ∀ conf ∈ confs, conf.hasF) {k : ℕ} (hk : (k + 1) * s.N_frames ≤ confs.length)
    (hclear : ForceRowsClear (afterBlocks lib k s confs)) (c : ℕ → K) :
    ∑ r ∈ range (3 * s.N * s.N_frames),
        ((blockSystem lib s confs k)._A.mulVec c (s.LeastSQOffset + r) -
          (blockSystem lib s confs k)._b.entry (s.LeastSQOffset + r)) ^ 2 =
      forceError lib.sqrt s.Splines s.N ((confs.drop (k * s.N_frames)).take s.N_frames) c := by
  have henc := encodesBlock_of_forceRowsClear lib hd hL hfit hbeads k hclear
  set chunk := (confs.drop (k * s.N_frames)).take s.N_frames
  have hlen : chunk.length = s.N_frames := length_block hk
  rw [show 3 * s.N * s.N_frames = s.N_frames * (3 * s.N) by ring, sum_range_mul_windows,
    forceError, ← Fin.sum_univ_get', ← hlen, Finset.sum_range]
  refine sum_congr rfl fun L _ => ?_
  rw [sum_range_mul_windows, ← Fin.sum_univ_eq_sum_range]
  refine sum_congr rfl fun a _ => sum_congr rfl fun j hj => ?_
  obtain ⟨hA, hb⟩ := henc L L.isLt a j (mem_range.1 hj) c
  have hmem : chunk[(L : ℕ)] ∈ confs :=
    List.mem_of_mem_drop (List.mem_of_mem_take (List.getElem_mem _))
  rw [show s.LeastSQOffset + (L * (3 * s.N) + (a * s.N + j)) =
    s.LeastSQOffset + 3 * s.N * L + a * s.N + j by ring, hA, hb (hF _ hmem)]

/-- **The residual of a simple block is the penalised force-matching objective**: from a state
with the smoothness rows and clear force rows, whose rows do not wrap, the residual of the system
of a full block whose frames have forces is `smoothPenalty + forceError` of its frames. -/
theorem residual_blockSystem_simple (lib : Numerics K) (hd : Dims s)
    (hc : s.ConstrLeastSQ = false) (hL : s.L = 0) (hfit : RowsFit s) (h0 : SmoothRows s)
    (hclear0 : ForceRowsClear s) (hbeads : ∀ conf ∈ confs, BeadsIn s.N conf)
    (hF : ∀ conf ∈ confs, conf.hasF) {k : ℕ} (hk : (k + 1) * s.N_frames ≤ confs.length)
    (c : ℕ → K) :
    residual (blockSystem lib s confs k)._A (blockSystem lib s confs k)._b c =
      smoothPenalty s.Splines c +
        forceError lib.sqrt s.Splines s.N ((confs.drop (k * s.N_frames)).take s.N_frames) c := by
  have hdS : Dims (blockSystem lib s confs k) := (hd.afterBlocks k confs).sampleFrames _
  have hoff : s.LeastSQOffset = totalKnots s.Splines := by
    simpa [hc, hd.line_cntr_eq] using hd.offset
  have hclear : ForceRowsClear (afterBlocks lib k s confs) := by
    cases k with
    | zero => exact hclear0
    | succ k => exact afterBlocks_forceRowsClear hd k
  have hsmooth : SmoothRows (blockSystem lib s confs k) := by
    have hk0 : SmoothRows (afterBlocks lib k s confs) := by
      cases k with
      | zero => exact h0
      | succ k =>
        rw [← closeBlock_blockSystem]
        exact closeBlock_smoothRows ((hd.afterBlocks k confs).sampleFrames _) (by simpa using hc)
    refine hk0.sampleFrames (by simpa [RowsFit] using hfit) ?_ fun conf h =>
      (afterBlocks_N k confs).symm ▸ hbeads conf (List.mem_of_mem_drop (List.mem_of_mem_take h))
    simp only [afterBlocks_L hL, afterBlocks_N_frames, zero_add]
    exact List.length_take_le _ _
  have hSp : smoothMatrix (blockSystem lib s confs k).Splines = smoothMatrix s.Splines := by
    rw [blockSystem, sampleFrames_Splines, smoothMatrix_afterBlocks]
  have hsize : (blockSystem lib s confs k)._A.size1 = s.LeastSQOffset + 3 * s.N * s.N_frames := by
    rw [hdS.A_size1_of_fit (by simpa [RowsFit, blockSystem] using hfit)]
    simp [blockSystem]
  rw [residual, hsize, sum_range_add, forceRows_sum hd hL hfit hbeads hF hk hclear c, smoothPenalty,
    ← hoff]
  refine congrArg (· + _) (sum_congr rfl fun r hr => ?_)
  obtain ⟨hA, hb⟩ := hsmooth r (by simpa [blockSystem] using mem_range.1 hr)
  rw [hA, hb, sub_zero, hSp]

/-- **The residual of a constrained block is the force-matching error**: from the second block
on, the system of a full block whose frames have forces holds its force rows only. -/
theorem residual_blockSystem_constrained (lib : Numerics K) (hd : Dims s)
    (hc : s.ConstrLeastSQ = true) (hL : s.L = 0) (hfit : RowsFit s)
    (hbeads : ∀ conf ∈ confs, BeadsIn s.N conf) (hF : ∀ conf ∈ confs, conf.hasF)
    {k : ℕ} (hk1 : 1 ≤ k) (hk : (k + 1) * s.N_frames ≤ confs.length) (c : ℕ → K) :
    residual (blockSystem lib s confs k)._A (blockSystem lib s confs k)._b c =
      forceError lib.sqrt s.Splines s.N ((confs.drop (k * s.N_frames)).take s.N_frames) c := by
  obtain ⟨k, rfl⟩ : ∃ k', k = k' + 1 := ⟨k - 1, by omega⟩
  have hoff : s.LeastSQOffset = 0 := by simpa [hc] using hd.offset
  have hdS : Dims (blockSystem lib s confs (k + 1)) := (hd.afterBlocks _ confs).sampleFrames _
  have hsize : (blockSystem lib s confs (k + 1))._A.size1 = 3 * s.N * s.N_frames := by
    rw [hdS.A_size1_of_fit (by simpa [RowsFit, blockSystem] using hfit)]
    simp [blockSystem, hoff]
  rw [residual, hsize]
  simpa only [hoff, zero_add] using
    forceRows_sum hd hL hfit hbeads hF hk (afterBlocks_forceRowsClear hd k) c

/-- The `_x` of block `k + 1` in simple mode: what `QR_lssolve` returned, on the coefficients. -/
theorem blockX_entry_simple (hd : Dims s) (hc : s.ConstrLeastSQ = false) (k : ℕ) {j : ℕ}
    (hj : j < (blockSystem lib s confs k)._A.size2) :
    (blockX lib s confs k).entry j =
      lib.QR_lssolve (blockSystem lib s confs k)._A.size1 (blockSystem lib s confs k)._A.size2
        (lib.QR_decomp (blockSystem lib s confs k)._A.size1 (blockSystem lib s confs k)._A.size2
          (blockSystem lib s confs k)._A.entry).1
        (lib.QR_decomp (blockSystem lib s confs k)._A.size1 (blockSystem lib s confs k)._A.size2
          (blockSystem lib s confs k)._A.entry).2
        (blockSystem lib s confs k)._b.entry j := by
  have hdS : Dims (blockSystem lib s confs k) := (hd.afterBlocks k confs).sampleFrames _
  have hx : j < (blockSystem lib s confs k)._x.size := by
    rw [hdS.x_size, ← hdS.A_size2]
    exact hj
  have hcS : (blockSystem lib s confs k).ConstrLeastSQ = false := by simpa using hc
  rw [blockX, ← closeBlock_blockSystem, closeBlock_x]
  simp only [fmatchAccumulateData, hcS, simpleSolve]
  exact if_pos hx

/-- The `_x` of block `k + 1` in constrained mode: the null-space solve of its system. -/
theorem blockX_constrained (hc : s.ConstrLeastSQ = true) (k : ℕ) :
    blockX lib s confs k =
      (constrainedSolve lib (blockSystem lib s confs k)._A (blockSystem lib s confs k)._b
        (blockSystem lib s confs k)._x (blockSystem lib s confs k).B_constr
        (blockSystem lib s confs k).line_cntr (blockSystem lib s confs k).col_cntr).2 := by
  rw [blockX, ← closeBlock_blockSystem, closeBlock_x]
  simp [fmatchAccumulateData, hc]

end Blocks

/-- A grid of one point whose basis weighs both coefficients by `1`, with one smoothness
condition, `c₀ = 0`: under it the spline is `c₁`. -/
def freeSpline : CubicSpline K :=
  ⟨1, fun _ => 0, fun _ => [(0, 1), (1, 1)], [(0, 0, 1)], by simp, by simp⟩

/-- A frame of one bead in a bond of its own, of length `0` and gradient `x̂`, with observed
force `(3, 0, 0)`. -/
def pullFrame : Topology K :=
  ⟨[⟨true, ⟨3, 0, 0⟩⟩], List.cons_ne_nil _ _,
    fun name => if name = "bond" then [⟨[(0, ⟨1, 0, 0⟩)], 0⟩] else [],
    fun _ _ => [], fun _ _ _ => []⟩

theorem pullFrame_beadsIn : BeadsIn 1 (pullFrame : Topology K) := by
  refine ⟨rfl, fun name inter hi p hp => ?_, fun _ _ _ h => (nomatch h),
    fun _ _ _ _ h => (nomatch h)⟩
  simp only [pullFrame] at hi
  split_ifs at hi
  · simp only [List.mem_singleton] at hi
    subst hi
    simp only [List.mem_singleton] at hp
    simp [hp]
  · cases hi

end Field

/-! ## The fit of a block -/

section Fit

variable [LinearOrderedField K]

/-- What the simple branch asks of `gsl_linalg_QR_decomp` and `gsl_linalg_QR_lssolve`: the
solution they return minimises `‖A x - b‖`. -/
def SolvesLeastSquares (lib : Numerics K) (A : UMatrix K) (b : UVector K) : Prop :=
  IsLeastSquares A b (lib.QR_lssolve A.size1 A.size2 (lib.QR_decomp A.size1 A.size2 A.entry).1
    (lib.QR_decomp A.size1 A.size2 A.entry).2 b.entry)

/-- What the constrained branch asks of `gsl_linalg_QR_lssolve`: `x_free` minimises
`‖A2 x_free - b‖`, for the `A2` that the factor of the constraints `B` gives. -/
def SolvesReduced (lib : Numerics K) (A : UMatrix K) (b : UVector K) (B : UMatrix K)
    (m n : ℕ) : Prop :=
  IsLeastSquares (constrA2 (constrAQ A (constrQ lib B m n)) n) b
    (constrXfree lib (constrA2 (constrAQ A (constrQ lib B m n)) n) b.entry)

variable (lib : Numerics K) (opts : Options K) (G : K → K → K → CubicSpline K)
  (BeadCount : ℕ) (staleA : ℕ → ℕ → K) (staleb : ℕ → K)

/-- **Simple least squares fits the forces.** In a run from `BeginCG` in simple mode, with rows
that fit in `int`, bead ids below `N` and forces in every frame, the squared residual of the
system of block `k + 1` at any coefficients `c` is the smoothness penalty of `c` plus the squared
error of the model forces at `c` against the block's observed forces; so if GSL's solve of that
system is least squares, the coefficients `_x` of the block minimise that sum. -/
theorem blockX_fits_simple (hc : opts.constrainedLS = false)
    (hfit : RowsFit (beginCG opts G BeadCount staleA staleb)) (confs : List (Topology K))
    (hbeads : ∀ conf ∈ confs, BeadsIn BeadCount conf) (hF : ∀ conf ∈ confs, conf.hasF)
    (k : ℕ) (hk : (k + 1) * opts.frames_per_block ≤ confs.length) :
    (∀ c, residual (blockSystem lib (beginCG opts G BeadCount staleA staleb) confs k)._A
        (blockSystem lib (beginCG opts G BeadCount staleA staleb) confs k)._b c =
      smoothPenalty (registerAll G opts).1 c +
        forceError lib.sqrt (registerAll G opts).1 BeadCount
          ((confs.drop (k * opts.frames_per_block)).take opts.frames_per_block) c) ∧
    (SolvesLeastSquares lib
        (blockSystem lib (beginCG opts G BeadCount staleA staleb) confs k)._A
        (blockSystem lib (beginCG opts G BeadCount staleA staleb) confs k)._b →
      ∀ c : ℕ → K,
        smoothPenalty (registerAll G opts).1
            (blockX lib (beginCG opts G BeadCount staleA staleb) confs k).entry +
          forceError lib.sqrt (registerAll G opts).1 BeadCount
            ((confs.drop (k * opts.frames_per_block)).take opts.frames_per_block)
            (blockX lib (beginCG opts G BeadCount staleA staleb) confs k).entry ≤
        smoothPenalty (registerAll G opts).1 c +
          forceError lib.sqrt (registerAll G opts).1 BeadCount
            ((confs.drop (k * opts.frames_per_block)).take opts.frames_per_block) c) := by
  have hd := dims_beginCG opts G BeadCount staleA staleb
  have hc0 : (beginCG opts G BeadCount staleA staleb).ConstrLeastSQ = false := by simpa using hc
  have hres := fun c => residual_blockSystem_simple lib hd hc0 (beginCG_L ..) hfit
    (beginCG_smoothRows opts G BeadCount staleA staleb hc)
    (beginCG_forceRowsClear opts G BeadCount staleA staleb hc) (by simpa using hbeads) hF
    (by simpa using hk) c
  simp only [beginCG_Splines, beginCG_N, beginCG_N_frames] at hres
  refine ⟨hres, fun hls c => ?_⟩
  rw [← hres, ← hres, residual_congr _ _ fun j hj => blockX_entry_simple hd hc0 k hj]
  exact hls c

/-- One frame of one bond through one bonded channel, in simple mode: the residual of the first
block is the smoothness penalty plus the force error of the frame. -/
theorem blockX_fits_simple_bond :
    RowsFit (beginCG (oneBond : Options ℚ) (fun _ _ _ => pointSpline) 2 (fun _ _ => 0)
      (fun _ => 0)) ∧
    (∀ c, residual (blockSystem idNumerics (beginCG (oneBond : Options ℚ)
          (fun _ _ _ => pointSpline) 2 (fun _ _ => 0) (fun _ => 0)) [bondFrame] 0)._A
        (blockSystem idNumerics (beginCG (oneBond : Options ℚ) (fun _ _ _ => pointSpline) 2
          (fun _ _ => 0) (fun _ => 0)) [bondFrame] 0)._b c =
      smoothPenalty (registerAll (fun _ _ _ => pointSpline) (oneBond : Options ℚ)).1 c +
        forceError id (registerAll (fun _ _ _ => pointSpline) (oneBond : Options ℚ)).1 2
          [bondFrame] c) ∧
    (SolvesLeastSquares idNumerics
        (blockSystem idNumerics (beginCG (oneBond : Options ℚ) (fun _ _ _ => pointSpline) 2
          (fun _ _ => 0) (fun _ => 0)) [bondFrame] 0)._A
        (blockSystem idNumerics (beginCG (oneBond : Options ℚ) (fun _ _ _ => pointSpline) 2
          (fun _ _ => 0) (fun _ => 0)) [bondFrame] 0)._b →
      ∀ c : ℕ → ℚ,
        smoothPenalty (registerAll (fun _ _ _ => pointSpline) (oneBond : Options ℚ)).1
            (blockX idNumerics (beginCG oneBond (fun _ _ _ => pointSpline) 2 (fun _ _ => 0)
              (fun _ => 0)) [bondFrame] 0).entry +
          forceError id (registerAll (fun _ _ _ => pointSpline) (oneBond : Options ℚ)).1 2
            [bondFrame] (blockX idNumerics (beginCG oneBond (fun _ _ _ => pointSpline) 2
              (fun _ _ => 0) (fun _ => 0)) [bondFrame] 0).entry ≤
        smoothPenalty (registerAll (fun _ _ _ => pointSpline) (oneBond : Options ℚ)).1 c +
          forceError id (registerAll (fun _ _ _ => pointSpline) (oneBond : Options ℚ)).1 2
            [bondFrame] c) :=
  ⟨by decide, blockX_fits_simple idNumerics oneBond _ 2 _ _ rfl (by decide) [bondFrame]
    (List.forall_mem_singleton.2 bondFrame_beadsIn) (List.forall_mem_singleton.2 rfl) 0
    (by decide)⟩

/-- **Constrained least squares fits the forces under exact smoothness.** In a run from
`BeginCG` in constrained mode, with bead ids below `N` and forces in every frame, from the
second block on: if `B_constr`, which is `smoothMatrix`, has full row rank, GSL factors it as it
promises and solves the reduced system in the least-squares sense, then the coefficients `_x`
of block `k + 1` meet the smoothness conditions exactly and minimise the squared error of the
model forces against the block's observed forces over all coefficients that meet them. -/
theorem blockX_fits_constrained (hc : opts.constrainedLS = true)
    (hfit : RowsFit (beginCG opts G BeadCount staleA staleb)) (confs : List (Topology K))
    (hbeads : ∀ conf ∈ confs, BeadsIn BeadCount conf) (hF : ∀ conf ∈ confs, conf.hasF)
    (k : ℕ)
    (hk1 : 1 ≤ k) (hk : (k + 1) * opts.frames_per_block ≤ confs.length)
    (hqr : HouseholderQR lib (smoothMatrix (registerAll G opts).1)
      (totalKnots (registerAll G opts).1) (2 * totalKnots (registerAll G opts).1))
    (hrank : FullRowRank (smoothMatrix (registerAll G opts).1)
      (totalKnots (registerAll G opts).1) (2 * totalKnots (registerAll G opts).1))
    (hls : SolvesReduced lib (blockSystem lib (beginCG opts G BeadCount staleA staleb) confs k)._A
      (blockSystem lib (beginCG opts G BeadCount staleA staleb) confs k)._b
      (smoothMatrix (registerAll G opts).1) (totalKnots (registerAll G opts).1)
      (2 * totalKnots (registerAll G opts).1)) :
    (∀ r < totalKnots (registerAll G opts).1, (smoothMatrix (registerAll G opts).1).mulVec
      (blockX lib (beginCG opts G BeadCount staleA staleb) confs k).entry r = 0) ∧
    ∀ c : ℕ → K, (∀ r < totalKnots (registerAll G opts).1,
        (smoothMatrix (registerAll G opts).1).mulVec c r = 0) →
      forceError lib.sqrt (registerAll G opts).1 BeadCount
          ((confs.drop (k * opts.frames_per_block)).take opts.frames_per_block)
          (blockX lib (beginCG opts G BeadCount staleA staleb) confs k).entry ≤
        forceError lib.sqrt (registerAll G opts).1 BeadCount
          ((confs.drop (k * opts.frames_per_block)).take opts.frames_per_block) c := by
  have hd := dims_beginCG opts G BeadCount staleA staleb
  have hc0 : (beginCG opts G BeadCount staleA staleb).ConstrLeastSQ = true := by simpa using hc
  have hdS : Dims (blockSystem lib (beginCG opts G BeadCount staleA staleb) confs k) :=
    (hd.afterBlocks k confs).sampleFrames _
  have hB : (blockSystem lib (beginCG opts G BeadCount staleA staleb) confs k).B_constr =
      smoothMatrix (beginCG opts G BeadCount staleA staleb).Splines :=
    blockSystem_B_constr hd hc0
      (by rw [beginCG_B_constr opts G BeadCount staleA staleb hc, beginCG_Splines]) k
  have hline : (blockSystem lib (beginCG opts G BeadCount staleA staleb) confs k).line_cntr =
      totalKnots (beginCG opts G BeadCount staleA staleb).Splines :=
    blockSystem_line_cntr hd k
  have hres := fun c => residual_blockSystem_constrained lib hd hc0 (beginCG_L ..) hfit
    (by simpa using hbeads) hF hk1 (by simpa using hk) c
  simp only [beginCG_Splines, beginCG_N, beginCG_N_frames] at hB hline hres
  set m := totalKnots (registerAll G opts).1
  have hcol : (blockSystem lib (beginCG opts G BeadCount staleA staleb) confs k).col_cntr =
      m + m := by
    rw [hdS.col_cntr_eq, hline, two_mul]
  have hBsize : (smoothMatrix (registerAll G opts).1).size2 = m + m := by
    rw [smoothMatrix_size2, two_mul]
  rw [two_mul] at hqr hrank hls
  rw [blockX_constrained hc0, hB, hline, hcol]
  refine ⟨fun r hr => constrainedSolve_feasible hqr hBsize (by rw [hdS.x_size, hcol]) hr,
    fun c hc' => ?_⟩
  rw [← hres, ← hres]
  exact constrainedSolve_le_of_feasible (by rw [hdS.A_size2, hcol]) (by rw [hdS.x_size, hcol])
    hBsize hqr hrank hls hc'

/-- Two frames of one bead pulled by `3 x̂` in a bond whose gradient is `x̂`, through one bonded
channel whose spline is `c₀ + c₁` under the condition `c₀ = 0`, constrained, in blocks of one
frame: the second block, whose reduced system `A2 = x̂`, `b = 3 x̂` `idNumerics` solves exactly. -/
theorem blockX_fits_constrained_pull :
    (∀ r < totalKnots (registerAll (fun _ _ _ => freeSpline) (oneBondConstrained : Options ℚ)).1,
      (smoothMatrix (registerAll (fun _ _ _ => freeSpline)
          (oneBondConstrained : Options ℚ)).1).mulVec
        (blockX idNumerics (beginCG oneBondConstrained (fun _ _ _ => freeSpline) 1
          (fun _ _ => 1) (fun _ => 0)) [pullFrame, pullFrame] 1).entry r = 0) ∧
    ∀ c : ℕ → ℚ, (∀ r < totalKnots (registerAll (fun _ _ _ => freeSpline)
        (oneBondConstrained : Options ℚ)).1,
        (smoothMatrix (registerAll (fun _ _ _ => freeSpline)
          (oneBondConstrained : Options ℚ)).1).mulVec c r = 0) →
      forceError id (registerAll (fun _ _ _ => freeSpline)
          (oneBondConstrained : Options ℚ)).1 1 [pullFrame]
          (blockX idNumerics (beginCG oneBondConstrained (fun _ _ _ => freeSpline) 1
            (fun _ _ => 1) (fun _ => 0)) [pullFrame, pullFrame] 1).entry ≤
        forceError id (registerAll (fun _ _ _ => freeSpline)
          (oneBondConstrained : Options ℚ)).1 1 [pullFrame] c := by
  set s0 := beginCG (oneBondConstrained : Options ℚ) (fun _ _ _ => freeSpline) 1 (fun _ _ => 1)
    (fun _ => 0) with hs0
  set S := blockSystem idNumerics s0 [pullFrame, pullFrame] 1
  have hd : Dims s0 := dims_beginCG ..
  have hfit : RowsFit s0 := by decide
  have hbeads : ∀ conf ∈ [pullFrame, pullFrame], BeadsIn 1 (conf : Topology ℚ) := by
    simp [pullFrame_beadsIn]
  have hF : ∀ conf ∈ [pullFrame, pullFrame], (conf : Topology ℚ).hasF := by
    simp [Topology.hasF, pullFrame]
  have hT : totalKnots (registerAll (fun _ _ _ => freeSpline)
      (oneBondConstrained : Options ℚ)).1 = 1 := by
    simp [totalKnots, registerAll, registerSpline, oneBondConstrained, freeSpline]
  have hS : smoothMatrix (registerAll (fun _ _ _ => freeSpline)
      (oneBondConstrained : Options ℚ)).1 = unitConstraint := by
    refine UMatrix.eq_of_entry_eq (by rw [smoothMatrix_size1, hT]; rfl)
      (by rw [smoothMatrix_size2, hT]; rfl) (funext fun i => funext fun j => ?_)
    simp [smoothMatrix, fmatchAssignSmoothCondsToMatrix, registerAll, registerSpline,
      oneBondConstrained, CubicSpline.addBCToFitMatrix, freeSpline, SplineInfo.new,
      UMatrix.set, UMatrix.clear, UMatrix.zero, unitConstraint, eq_comm]
  have hrank : FullRowRank unitConstraint 1 2 :=
    (linearIndependent_unique_iff _).2 fun h => by
      have := congrFun h 0
      simp [unitConstraint] at this
  -- the block's system: two columns, the observed force `3` on the `x` row, and the residual
  -- the force error of its frame
  have hA : S._A.size2 = 1 + 1 := by
    have hdS : Dims S := (hd.afterBlocks 1 _).sampleFrames _
    rw [hdS.A_size2, hdS.col_cntr_eq, blockSystem_line_cntr hd, beginCG_Splines, hT]
  have hb0 : S._b.entry 0 = 3 := by
    simpa [hs0, oneBondConstrained, Topology.hasF, pullFrame, Topology.getF, Vec3.get] using
      (blockSystem_rows idNumerics hd (beginCG_L ..) hfit hbeads 1 (L := 0)
        (by simp [hs0, oneBondConstrained]) 0 (j := 0) (by simp [hs0]) 0).2
  have hres : ∀ c, residual S._A S._b c = forceError id
      (registerAll (fun _ _ _ => freeSpline) (oneBondConstrained : Options ℚ)).1 1 [pullFrame] c :=
    residual_blockSystem_constrained idNumerics hd rfl (beginCG_L ..) hfit hbeads hF le_rfl
      (by decide)
  -- `idNumerics` returns `x_free = b`, and `Q [0; b] = (0, 3)` fits the frame exactly
  have hls : SolvesReduced idNumerics S._A S._b unitConstraint 1 2 := fun z => by
    have h0 : residual S._A S._b
        (constrX (1 : Matrix (Fin (1 + 1)) (Fin (1 + 1)) ℚ) (constrY (1 + 1) S._b.entry)) = 0 := by
      rw [hres]
      simp [forceError, modelForce, channelForce, registerAll, registerSpline,
        oneBondConstrained, pullFrame, SplineInfo.new, channelSpline, CubicSpline.calculate,
        freeSpline, constrX, constrY, ofMatrix, Matrix.one_apply, hb0, Vec3.get,
        Fin.sum_univ_three, sum_range_succ, Topology.getF]
    calc _ = residual S._A S._b
          (constrX (1 : Matrix (Fin (1 + 1)) (Fin (1 + 1)) ℚ) (constrY (1 + 1) S._b.entry)) := by
          rw [constrQ_idNumerics]
          exact residual_constrA2 _ hA 1 _ _
      _ = 0 := h0
      _ ≤ _ := sum_nonneg fun _ _ => sq_nonneg _
  exact blockX_fits_constrained idNumerics oneBondConstrained _ 1 _ _ rfl hfit
    [pullFrame, pullFrame] hbeads hF 1 le_rfl (by decide)
    (by rw [hS, hT]; exact unitConstraint_qr) (by rw [hS, hT]; exact hrank)
    (by rw [hS, hT]; exact hls)

end Fit

end Votca
