import Votca.Fmatch.Frame

/-!
# Runs of the engine: frames, blocks and the frame counter

A run feeds the frames of a trajectory to `EvalConfiguration` one after another and stops at
the first fault (`run`). With `N_frames ≥ 1` it never faults, and it is a sequence of whole
blocks — `N_frames` frames sampled, then one close with one `FmatchAccumulateData` — followed by
the frames of the unfinished block (`run_eq_blocks`). That decomposition is the block-level
view of the engine that the statements about the solves and the statistics are made in.

Proof shape: `run_of_lt` runs frames that stay inside one block, `run_block` runs one whole
block from `L = 0`, and `run_eq_blocks` is the strong induction on the number of frames that
chains them with `run_append_of_ok`.
-/

namespace Votca

variable {K : Type*} [Field K]

/-! ## Runs, frames and blocks -/

/-- `EvalConfiguration` on every frame of `confs`, in order; the first fault stops the run. -/
def run (lib : Numerics K) (s : CGForceMatching K) (confs : List (Topology K)) :
    Except Fault (CGForceMatching K) :=
  confs.foldlM (evalConfiguration lib) s

/-- Frames sampled with no block close between them. -/
def sampleFrames (lib : Numerics K) (s : CGForceMatching K) (confs : List (Topology K)) :
    CGForceMatching K :=
  confs.foldl (sampleFrame lib) s

/-- One whole block: its frames, then the close. -/
def blockStep (lib : Numerics K) (s : CGForceMatching K) (chunk : List (Topology K)) :
    CGForceMatching K :=
  closeBlock lib (sampleFrames lib s chunk)

/-- The state after `k` whole blocks of `N_frames` frames each. -/
def afterBlocks (lib : Numerics K) : ℕ → CGForceMatching K → List (Topology K) →
    CGForceMatching K
  | 0, s, _ => s
  | k + 1, s, confs =>
    afterBlocks lib k (blockStep lib s (confs.take s.N_frames)) (confs.drop s.N_frames)

variable {lib : Numerics K} {s : CGForceMatching K}

/-! ## Running frames -/

@[simp] theorem run_nil : run lib s [] = .ok s := rfl

theorem run_cons_of_ok {c : Topology K} {s' : CGForceMatching K}
    (h : evalConfiguration lib s c = .ok s') (cs : List (Topology K)) :
    run lib s (c :: cs) = run lib s' cs := by
  simp only [run, List.foldlM_cons, h]
  rfl

theorem run_append_of_ok {xs : List (Topology K)} {s' : CGForceMatching K}
    (h : run lib s xs = .ok s') (ys : List (Topology K)) :
    run lib s (xs ++ ys) = run lib s' ys := by
  simp only [run, List.foldlM_append] at h ⊢
  rw [h]
  rfl

/-- **Run induction**: a property that every frame and every block close keep holds of every
state a run returns. -/
theorem run_induction (lib : Numerics K) (P : CGForceMatching K → Prop)
    (hframe : ∀ s c, P s → P (sampleFrame lib s c)) (hclose : ∀ s, P s → P (closeBlock lib s))
    (h : P s) {confs : List (Topology K)} {s' : CGForceMatching K}
    (hs : run lib s confs = .ok s') : P s' := by
  induction confs generalizing s with
  | nil => cases hs; exact h
  | cons c cs ih =>
    cases hc : evalConfiguration lib s c with
    | error e =>
      simp only [run, List.foldlM_cons, hc] at hs
      cases hs
    | ok s₁ =>
      rw [run_cons_of_ok hc] at hs
      refine ih ?_ hs
      rcases evalConfiguration_ok hc with rfl | rfl
      exacts [hclose _ (hframe _ _ h), hframe _ _ h]

theorem sampleFrames_keep {β : Sort*} (f : CGForceMatching K → β)
    (hf : ∀ s c, f (sampleFrame lib s c) = f s) (s : CGForceMatching K)
    (confs : List (Topology K)) : f (sampleFrames lib s confs) = f s := by
  induction confs generalizing s with
  | nil => rfl
  | cons c cs ih => exact (ih _).trans (hf s c)

@[simp] theorem sampleFrames_L (confs : List (Topology K)) :
    (sampleFrames lib s confs).L = s.L + confs.length := by
  induction confs generalizing s with
  | nil => rfl
  | cons c cs ih => simp only [sampleFrames, List.foldl_cons] at ih ⊢; rw [ih]; simp; omega

@[simp] theorem sampleFrames_N_frames (confs : List (Topology K)) :
    (sampleFrames lib s confs).N_frames = s.N_frames :=
  sampleFrames_keep (·.N_frames) (fun _ _ => rfl) s confs

@[simp] theorem sampleFrames_Splines (confs : List (Topology K)) :
    (sampleFrames lib s confs).Splines = s.Splines :=
  sampleFrames_keep (·.Splines) (fun _ _ => rfl) s confs

@[simp] theorem sampleFrames_BlockNum (confs : List (Topology K)) :
    (sampleFrames lib s confs).BlockNum = s.BlockNum :=
  sampleFrames_keep (·.BlockNum) (fun _ _ => rfl) s confs

@[simp] theorem sampleFrames_N (confs : List (Topology K)) :
    (sampleFrames lib s confs).N = s.N :=
  sampleFrames_keep (·.N) (fun _ _ => rfl) s confs

@[simp] theorem sampleFrames_LeastSQOffset (confs : List (Topology K)) :
    (sampleFrames lib s confs).LeastSQOffset = s.LeastSQOffset :=
  sampleFrames_keep (·.LeastSQOffset) (fun _ _ => rfl) s confs

@[simp] theorem sampleFrames_ConstrLeastSQ (confs : List (Topology K)) :
    (sampleFrames lib s confs).ConstrLeastSQ = s.ConstrLeastSQ :=
  sampleFrames_keep (·.ConstrLeastSQ) (fun _ _ => rfl) s confs

theorem sampleFrames_append (xs ys : List (Topology K)) :
    sampleFrames lib s (xs ++ ys) = sampleFrames lib (sampleFrames lib s xs) ys :=
  List.foldl_append _ _ _ _

/-- **Frames inside a block**: while `L` stays below `N_frames`, a run only samples. -/
theorem run_of_lt (lib : Numerics K) (h0 : 0 < s.N_frames) (confs : List (Topology K))
    (h : s.L + confs.length < s.N_frames) : run lib s confs = .ok (sampleFrames lib s confs) := by
  induction confs generalizing s with
  | nil => rfl
  | cons c cs ih =>
    simp only [List.length_cons] at h
    rw [run_cons_of_ok (evalConfiguration_of_pos h0),
      if_neg (by rw [Nat.mod_eq_of_lt (by omega)]; omega),
      ih (s := sampleFrame lib s c) h0 (by simp; omega)]
    rfl

/-- **One block**: from `L = 0`, a run of `N_frames` frames samples them and closes the block
once. -/
theorem run_block (lib : Numerics K) (h0 : 0 < s.N_frames) (hL : s.L = 0)
    (chunk : List (Topology K)) (hlen : chunk.length = s.N_frames) :
    run lib s chunk = .ok (blockStep lib s chunk) := by
  obtain rfl | ⟨init, c, rfl⟩ := List.eq_nil_or_concat' chunk
  · simp at hlen; omega
  simp only [List.length_append, List.length_singleton] at hlen
  have hinit := run_of_lt lib h0 init (by omega)
  rw [run_append_of_ok hinit, run_cons_of_ok (evalConfiguration_of_pos (by simpa using h0)),
    if_pos (by simp [hL, hlen]), run_nil, blockStep, sampleFrames_append]
  rfl

/-! ## Whole blocks -/

section Blocks

variable {chunk : List (Topology K)}

@[simp] theorem blockStep_N_frames : (blockStep lib s chunk).N_frames = s.N_frames := by
  simp [blockStep]
@[simp] theorem blockStep_L : (blockStep lib s chunk).L = 0 := by simp [blockStep]
@[simp] theorem blockStep_BlockNum : (blockStep lib s chunk).BlockNum = s.BlockNum + 1 := by
  simp [blockStep]

theorem afterBlocks_keep {β : Sort*} (f : CGForceMatching K → β)
    (hf : ∀ s chunk, f (blockStep lib s chunk) = f s) (k : ℕ) (s : CGForceMatching K)
    (confs : List (Topology K)) : f (afterBlocks lib k s confs) = f s := by
  induction k generalizing s confs with
  | zero => rfl
  | succ k ih => exact (ih _ _).trans (hf _ _)

@[simp] theorem afterBlocks_N_frames (k : ℕ) (confs : List (Topology K)) :
    (afterBlocks lib k s confs).N_frames = s.N_frames :=
  afterBlocks_keep (·.N_frames) (fun _ _ => blockStep_N_frames) k s confs

@[simp] theorem afterBlocks_N (k : ℕ) (confs : List (Topology K)) :
    (afterBlocks lib k s confs).N = s.N :=
  afterBlocks_keep (·.N) (fun _ _ => by simp [blockStep]) k s confs

@[simp] theorem afterBlocks_LeastSQOffset (k : ℕ) (confs : List (Topology K)) :
    (afterBlocks lib k s confs).LeastSQOffset = s.LeastSQOffset :=
  afterBlocks_keep (·.LeastSQOffset) (fun _ _ => by simp [blockStep]) k s confs

@[simp] theorem afterBlocks_ConstrLeastSQ (k : ℕ) (confs : List (Topology K)) :
    (afterBlocks lib k s confs).ConstrLeastSQ = s.ConstrLeastSQ :=
  afterBlocks_keep (·.ConstrLeastSQ) (fun _ _ => by simp [blockStep]) k s confs

theorem afterBlocks_succ (k : ℕ) (confs : List (Topology K)) :
    afterBlocks lib (k + 1) s confs =
      afterBlocks lib k (blockStep lib s (confs.take s.N_frames)) (confs.drop s.N_frames) := rfl

/-- After a block, `L` is back at `0`. -/
theorem afterBlocks_L (hL : s.L = 0) (k : ℕ) (confs : List (Topology K)) :
    (afterBlocks lib k s confs).L = 0 := by
  induction k generalizing s confs with
  | zero => exact hL
  | succ k ih => exact ih blockStep_L _

@[simp] theorem afterBlocks_BlockNum (k : ℕ) (confs : List (Topology K)) :
    (afterBlocks lib k s confs).BlockNum = s.BlockNum + k := by
  induction k generalizing s confs with
  | zero => rfl
  | succ k ih => rw [afterBlocks_succ, ih, blockStep_BlockNum]; omega

/-- The `_x` of the `k + 1`-th solve of a run: the solution of its `k + 1`-th block. -/
def blockX (lib : Numerics K) (s : CGForceMatching K) (confs : List (Topology K)) (k : ℕ) :
    UVector K :=
  (afterBlocks lib (k + 1) s confs)._x

/-- **The channels after `k` blocks** are the initial channels with the statistics of the first
`k` block solutions added, in order. -/
theorem afterBlocks_Splines (k : ℕ) (s : CGForceMatching K) (confs : List (Topology K)) :
    (afterBlocks lib k s confs).Splines =
      s.Splines.map fun sp => accumulateBlocks sp ((List.range k).map (blockX lib s confs)) := by
  induction k generalizing s confs with
  | zero => simp [afterBlocks]
  | succ k ih =>
    rw [afterBlocks_succ, ih, blockStep, closeBlock_Splines, sampleFrames_Splines, List.map_map,
      List.range_succ_eq_map, List.map_cons, List.map_map]
    rfl

/-- **The run is whole blocks, then the unfinished one**: from `L = 0` with `N_frames ≥ 1`, a
run of `m` frames never faults; it closes `m / N_frames` blocks of `N_frames` frames, each
with one `FmatchAccumulateData`, and then samples the remaining `m % N_frames` frames. -/
theorem run_eq_blocks (lib : Numerics K) (h0 : 0 < s.N_frames) (hL : s.L = 0)
    (confs : List (Topology K)) :
    run lib s confs = .ok (sampleFrames lib (afterBlocks lib (confs.length / s.N_frames) s confs)
      (confs.drop (confs.length / s.N_frames * s.N_frames))) := by
  induction' hn : confs.length using Nat.strong_induction_on with n ih generalizing s confs
  by_cases hlt : n < s.N_frames
  · rw [Nat.div_eq_of_lt hlt, Nat.zero_mul, List.drop_zero]
    exact run_of_lt lib h0 confs (by omega)
  set N := s.N_frames
  have hdiv : n / N = (n - N) / N + 1 := by
    rw [← Nat.add_div_right _ h0, Nat.sub_add_cancel (not_lt.1 hlt)]
  have hblock := run_block lib h0 hL (confs.take N) (by simp; omega)
  have hrest := ih (n - N) (by omega) (s := blockStep lib s (confs.take N))
    (by simpa using h0) blockStep_L (confs.drop N) (by simp [hn])
  simp only [blockStep_N_frames] at hrest
  conv_lhs => rw [← List.take_append_drop N confs]
  rw [run_append_of_ok hblock, hrest, hdiv, afterBlocks_succ, List.drop_drop, Nat.succ_mul,
    Nat.add_comm N]

end Blocks

/-! ## What every state keeps -/

/-- What `BeginCG` establishes and every call keeps: the column layout of the splines and the
counters, the sizes of every spline's vectors, the mode's row offset, and the sizes of the fit
system. -/
structure Dims (s : CGForceMatching K) : Prop where
  layout : Layout s.Splines 0
  line_cntr_eq : s.line_cntr = totalKnots s.Splines
  col_cntr_eq : s.col_cntr = 2 * s.line_cntr
  splines : ∀ sp ∈ s.Splines, sp.knots = sp.Spline.size ∧ sp.block_res.size = 2 * sp.knots ∧
    sp.result.size = sp.res_output_coeff * sp.knots
  offset : s.LeastSQOffset = if s.ConstrLeastSQ then 0 else s.line_cntr
  A_size1 : s._A.size1 = intIndex (s.LeastSQOffset + 3 * s.N * s.N_frames)
  A_size2 : s._A.size2 = s.col_cntr
  b_size : s._b.size = s._A.size1
  x_size : s._x.size = s.col_cntr
  B_constr_size : s.ConstrLeastSQ → s.B_constr.size1 = s.line_cntr ∧ s.B_constr.size2 = s.col_cntr

omit [Field K] in
/-- Under `RowsFit`, the rows of the fit system are `LeastSQOffset + 3 N N_frames`. -/
theorem Dims.A_size1_of_fit (h : Dims s) (hfit : RowsFit s) :
    s._A.size1 = s.LeastSQOffset + 3 * s.N * s.N_frames :=
  h.A_size1.trans (intIndex_of_lt hfit)

theorem layout_map_accumulateSpline (x : UVector K) {Sp : List (SplineInfo K)} {pos : ℕ} :
    Layout (Sp.map (accumulateSpline x)) pos ↔ Layout Sp pos := by
  induction Sp generalizing pos with
  | nil => simp
  | cons sp rest ih => simp [ih]

@[simp] theorem totalKnots_map_accumulateSpline (x : UVector K) (Sp : List (SplineInfo K)) :
    totalKnots (Sp.map (accumulateSpline x)) = totalKnots Sp := by
  simp [totalKnots, Function.comp_def]

/-- `BeginCG` establishes the invariant, in both modes. -/
theorem dims_beginCG (opts : Options K) (G : K → K → K → CubicSpline K) (BeadCount : ℕ)
    (staleA : ℕ → ℕ → K) (staleb : ℕ → K) : Dims (beginCG opts G BeadCount staleA staleb) := by
  obtain ⟨hl, h1, h2⟩ := registered_registerAll G opts
  have hsz := registerAll_sizes G opts
  unfold beginCG
  split_ifs with hc
  · refine ⟨hl, h1, h2, hsz, by simp [hc], ?_, rfl, rfl, rfl,
      fun _ => ⟨by simp [UMatrix.zero], by simp [UMatrix.zero]⟩⟩
    simp only [UMatrix.resize, intIndex]
    push_cast
    ring_nf
  · refine ⟨hl, h1, h2, hsz, by simp [hc], ?_, by simp [UMatrix.resize],
      by simp [UVector.resize, UMatrix.resize], rfl, fun h => by simp at h⟩
    simp only [fmatchAssignSmoothCondsToMatrix_size1, UMatrix.resize, intIndex]
    push_cast
    rfl

variable {conf : Topology K}

/-- A frame keeps the invariant: it only adds entries to `_A` and assigns entries of `_b`. -/
theorem Dims.sampleFrame (h : Dims s) : Dims (sampleFrame lib s conf) :=
  ⟨h.layout, h.line_cntr_eq, h.col_cntr_eq, h.splines, h.offset, by simp [h.A_size1],
    by simp [h.A_size2], by simp [h.b_size], h.x_size, h.B_constr_size⟩

/-- A block close keeps the invariant: the solve keeps the sizes, the statistics keep the
splines' layout and sizes, and the reset keeps the sizes. -/
theorem Dims.closeBlock (h : Dims s) : Dims (closeBlock lib s) := by
  refine ⟨?_, ?_, by simpa using h.col_cntr_eq, ?_, by simpa using h.offset, by simpa using h.A_size1,
    by simpa using closeBlock_A_size2 lib s h.A_size2, by simpa using h.b_size,
    by simpa using closeBlock_x_size lib s h.x_size, fun hc => ?_⟩
  · rw [closeBlock_Splines, layout_map_accumulateSpline]
    exact h.layout
  · simpa using h.line_cntr_eq
  · simp only [closeBlock_Splines, List.mem_map]
    rintro _ ⟨sp, hsp, rfl⟩
    simpa using h.splines sp hsp
  · have hc' : s.ConstrLeastSQ := by simpa using hc
    rw [(closeBlock_B_constr_size lib s hc').1, (closeBlock_B_constr_size lib s hc').2]
    simpa using h.B_constr_size hc'

/-- **A whole run keeps the invariant.** -/
theorem Dims.run (h : Dims s) {confs : List (Topology K)} {s' : CGForceMatching K}
    (hs : Votca.run lib s confs = .ok s') : Dims s' :=
  run_induction lib Dims (fun _ _ h => h.sampleFrame) (fun _ h => h.closeBlock) h hs

theorem Dims.sampleFrames (h : Dims s) (confs : List (Topology K)) :
    Dims (sampleFrames lib s confs) := by
  induction confs generalizing s with
  | nil => exact h
  | cons c cs ih => exact ih h.sampleFrame

/-- Whole blocks keep the invariant. -/
theorem Dims.afterBlocks (h : Dims s) (k : ℕ) (confs : List (Topology K)) :
    Dims (afterBlocks lib k s confs) := by
  induction k generalizing s confs with
  | zero => exact h
  | succ k ih => exact ih (h.sampleFrames _).closeBlock _

omit [Field K] in
/-- Every channel's column block lies inside `_A`. -/
theorem Dims.block_le (h : Dims s) {sp : SplineInfo K} (hsp : sp ∈ s.Splines) :
    sp.matr_pos + 2 * sp.Spline.size ≤ s._A.size2 := by
  obtain ⟨i, hi, rfl⟩ := List.mem_iff_getElem.1 hsp
  have := (h.layout.block_le hi).2
  rw [h.A_size2, h.col_cntr_eq, h.line_cntr_eq, ← (h.splines _ hsp).1]
  omega

/-- The members `BeginCG` sets once and no call changes. -/
structure SameSetup (s t : CGForceMatching K) : Prop where
  N : t.N = s.N
  N_frames : t.N_frames = s.N_frames
  ConstrLeastSQ : t.ConstrLeastSQ = s.ConstrLeastSQ
  LeastSQOffset : t.LeastSQOffset = s.LeastSQOffset
  line_cntr : t.line_cntr = s.line_cntr
  col_cntr : t.col_cntr = s.col_cntr

theorem run_sameSetup {confs : List (Topology K)} {s' : CGForceMatching K}
    (hs : run lib s confs = .ok s') : SameSetup s s' :=
  run_induction lib (SameSetup s) (fun _ _ h => by constructor <;> simp [h.1, h.2, h.3, h.4, h.5, h.6])
    (fun _ h => by constructor <;> simp [h.1, h.2, h.3, h.4, h.5, h.6]) (by constructor <;> rfl) hs

/-- **The frame counter**: from `L = 0` with `N_frames ≥ 1`, a run of `m` frames returns, with
`L = m % N_frames` and `m / N_frames` more blocks. -/
theorem run_counter (lib : Numerics K) (h0 : 0 < s.N_frames) (hL : s.L = 0)
    (confs : List (Topology K)) :
    ∃ s', run lib s confs = .ok s' ∧ s'.L = confs.length % s.N_frames ∧
      s'.BlockNum = s.BlockNum + confs.length / s.N_frames := by
  refine ⟨_, run_eq_blocks lib h0 hL confs, ?_, by simp⟩
  have hdm := Nat.div_add_mod confs.length s.N_frames
  rw [sampleFrames_L, afterBlocks_L hL, List.length_drop, Nat.mul_comm]
  omega

/-- On entry to every call of a run from `L = 0`, the frame counter is inside its block. -/
theorem run_L_lt (h0 : 0 < s.N_frames) (hL : s.L = 0) {confs : List (Topology K)}
    {s' : CGForceMatching K} (hs : run lib s confs = .ok s') : s'.L < s'.N_frames := by
  obtain ⟨t, ht, htL, -⟩ := run_counter lib h0 hL confs
  rw [hs] at ht
  cases ht
  rw [htL, (run_sameSetup hs).N_frames]
  exact Nat.mod_lt _ h0

/-- `RowsFit` is a property of the setup: a run keeps it. -/
theorem run_rowsFit {confs : List (Topology K)} {s' : CGForceMatching K}
    (hs : run lib s confs = .ok s') : RowsFit s' ↔ RowsFit s := by
  have h := run_sameSetup hs
  simp only [RowsFit, h.LeastSQOffset, h.N, h.N_frames]

end Votca
