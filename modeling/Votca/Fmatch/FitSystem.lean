import Votca.Fmatch.Reachable

/-!
# The fit system of a block and the force-matching problem

Between two block closes the rows `LeastSQOffset + 3 N L + a N + j` of `_A` collect what every
channel adds for axis `a` of bead `j` in the `L`-th frame of the block. Against a coefficient
vector `c` such a row is the force the splines with coefficients `c` put on the bead
(`modelForce`): a fit row of `AddToFitMatrix` is its scale times the spline
(`addToFitMatrix_apply`), the rows of other beads, axes and frames receive nothing from it
(`slot_inj`), and a channel reads only its own column block. `_b` holds the observed forces on
the same rows.

The system handed to `FmatchAccumulateData` is therefore the block's frames on top of what the
force rows held when the block began (`blockSystem_mulVec`). After a close, and from
`BeginCG` in simple mode, those rows are zero (`ForceRowsClear`). From `BeginCG` in constrained
mode they are the storage `resize (…, false)` handed out, which the program never clears, so
the first constrained block solves a system that need not be the problem of its frames.

Proof shape: `rowDot` is the part of a row of `M c` that a list of entries contributes. It is
additive over the lists the loops concatenate, so the encoding is proved once per bead
(`rowDot_addBead`), once per frame (`rowDot_frameEntries`) and by induction over the frames of
a block (`rowDot_framesEntries`).
-/

namespace Votca

variable {K : Type*} [Field K]

/-! ## Rows of a product -/

/-- What the entries `es` of an `n`-column matrix contribute to row `r` of `M c`: the term
`val · c(col)` of every entry on the row and inside the matrix. -/
def rowDot (n : ℕ) (es : List (Entry K)) (r : ℕ) (c : ℕ → K) : K :=
  ((es.filter fun e => e.row = r ∧ e.col < n).map fun e => e.val * c e.col).sum

section RowDot

variable {n r : ℕ} {c : ℕ → K}

/-- `mulVec_addEntries` in terms of `rowDot`. -/
theorem mulVec_addEntries_eq (M : UMatrix K) (es : List (Entry K)) (c : ℕ → K) (r : ℕ) :
    (M.addEntries es).mulVec c r = M.mulVec c r + rowDot M.size2 es r c :=
  M.mulVec_addEntries es c r

@[simp] theorem rowDot_nil : rowDot n ([] : List (Entry K)) r c = 0 := rfl

theorem rowDot_append (es fs : List (Entry K)) :
    rowDot n (es ++ fs) r c = rowDot n es r c + rowDot n fs r c := by
  simp [rowDot, List.filter_append]

theorem rowDot_flatMap {α : Type*} (l : List α) (f : α → List (Entry K)) :
    rowDot n (l.flatMap f) r c = (l.map fun x => rowDot n (f x) r c).sum := by
  induction l with
  | nil => rfl
  | cons x l ih => simp [List.flatMap_cons, rowDot_append, ih]

/-- Entries off the row add nothing to it. -/
theorem rowDot_eq_zero {es : List (Entry K)} (h : ∀ e ∈ es, e.row ≠ r) :
    rowDot n es r c = 0 := by
  rw [rowDot, List.filter_eq_nil_iff.2 fun e he hp => h e he (by simp at hp; exact hp.1)]
  rfl

/-- A fit row inside the matrix contributes, on its own row, the scaled spline. -/
theorem rowDot_addToFitMatrix (SP : CubicSpline K) (x : K) {o1 o2 : ℕ} (s : K)
    (hcol : o2 + 2 * SP.size ≤ n) :
    rowDot n (SP.addToFitMatrix x o1 o2 s) r c =
      if o1 = r then s * SP.calculate (fun i => c (o2 + i)) x else 0 := by
  split_ifs with h
  · rw [rowDot, List.filter_eq_self.2 fun e he => ?_, SP.addToFitMatrix_apply]
    have := SP.addToFitMatrix_col he
    simp [SP.addToFitMatrix_row he, h]
    omega
  · exact rowDot_eq_zero fun e he => by rw [SP.addToFitMatrix_row he]; exact h

end RowDot

/-! ## The force-matching problem of a frame -/

/-- `S_s(c)`: channel `sp`'s spline with the coefficients `c[matr_pos, matr_pos + 2(n + 1))`. -/
def channelSpline (sp : SplineInfo K) (c : ℕ → K) (x : K) : K :=
  sp.Spline.calculate (fun i => c (sp.matr_pos + i)) x

/-- The force channel `sp` with coefficients `c` puts on axis `a` of bead `j` in frame `conf`.
Bonded: every occurrence of `j` in an interaction of the channel's group, weighted by that
occurrence's gradient. Non-bonded: every pair of the neighbour list, `+r̂` when `j` is the first
bead and `-r̂` when it is the second. Each term is times the spline at the interaction's
coordinate. -/
def channelForce (sqrt : K → K) (sp : SplineInfo K) (conf : Topology K) (j : ℕ) (a : Fin 3)
    (c : ℕ → K) : K :=
  if sp.bonded then
    ((conf.interactionsInGroup sp.splineName).map fun inter =>
      (inter.beads.map fun p =>
        if p.1 = j then p.2.get a * channelSpline sp c inter.var else 0).sum).sum
  else
    ((NBL sp conf).map fun pair =>
      ((if pair.first = j then (pair.r.normalize sqrt).get a else 0) +
        (if pair.second = j then -(pair.r.normalize sqrt).get a else 0)) *
          channelSpline sp c pair.dist).sum

/-- `F_{j,a}(c)`: the force of all channels on axis `a` of bead `j` in frame `conf`. -/
def modelForce (sqrt : K → K) (Splines : List (SplineInfo K)) (conf : Topology K) (j : ℕ)
    (a : Fin 3) (c : ℕ → K) : K :=
  (Splines.map fun sp => channelForce sqrt sp conf j a c).sum

section Channels

variable (sqrt : K → K) (conf : Topology K) (j : ℕ) (a : Fin 3) (c : ℕ → K)

/-- The statistics of a channel do not enter its force. -/
theorem channelForce_accumulateBlocks (sp : SplineInfo K) (xs : List (UVector K)) :
    channelForce sqrt (accumulateBlocks sp xs) conf j a c = channelForce sqrt sp conf j a c := by
  induction xs generalizing sp with
  | nil => rfl
  | cons x xs ih => exact (ih _).trans rfl

/-- Blocks leave the forces the channels ask for as they were. -/
theorem modelForce_afterBlocks (lib : Numerics K) (k : ℕ) (s : CGForceMatching K)
    (confs : List (Topology K)) :
    modelForce sqrt (afterBlocks lib k s confs).Splines conf j a c =
      modelForce sqrt s.Splines conf j a c := by
  simp only [modelForce, afterBlocks_Splines, List.map_map, Function.comp_def,
    channelForce_accumulateBlocks]

end Channels

/-! ## One frame -/

section Frame

variable {sqrt : K → K} {s : CGForceMatching K} {conf : Topology K} {n : ℕ} {c : ℕ → K}

/-- **One bead's three calls**: on the row of axis `a` of bead `j`, the calls for bead `ii`
contribute the gradient's component `a` times the spline when `ii = j`, and nothing
otherwise, while the rows of the frame do not wrap. -/
theorem rowDot_addBead (hfit : RowsFit s) (hL : s.L < s.N_frames) (SP : CubicSpline K) (var : K)
    {ii mpos : ℕ} (g : Vec3 K) (hcol : mpos + 2 * SP.size ≤ n) (a : Fin 3) {j : ℕ}
    (hii : ii < s.N) (hj : j < s.N) :
    rowDot n (addBead s SP var ii mpos g) (frameRow s a j) c =
      if ii = j then g.get a * SP.calculate (fun i => c (mpos + i)) var else 0 := by
  have hrow : ∀ a' < 3, (frameRow s a' ii = frameRow s a j ↔ a' = a ∧ ii = j) :=
    fun a' ha' => frameRow_eq_iff hfit hL ha' a.isLt hii hj
  have h0 := hrow 0 (by decide)
  have h1 := hrow 1 (by decide)
  have h2 := hrow 2 (by decide)
  obtain ⟨r0, r1, r2⟩ := sizeType_frameBase s ii
  simp only [addBead, rowDot_append, rowDot_addToFitMatrix _ _ _ hcol, r0, r1, r2, h0, h1, h2]
  fin_cases a <;> by_cases h : ii = j <;> simp [h, Vec3.get]

/-- **A frame's rows are its forces**: when the frame is one of the topology's and every
channel's block lies in the `n` columns, the row of axis `a` of bead `j` of a frame is, against
any `c`, the frame's `modelForce`, while the rows of the frame do not wrap. -/
theorem rowDot_frameEntries (hfit : RowsFit s) (hL : s.L < s.N_frames)
    (hcol : ∀ sp ∈ s.Splines, sp.matr_pos + 2 * sp.Spline.size ≤ n)
    (hbeads : BeadsIn s.N conf) (a : Fin 3) {j : ℕ} (hj : j < s.N) :
    rowDot n (frameEntries sqrt s conf) (frameRow s a j) c =
      modelForce sqrt s.Splines conf j a c := by
  rw [frameEntries, rowDot_flatMap, modelForce]
  refine congrArg List.sum (List.map_congr_left fun sp hsp => ?_)
  rw [channelForce]
  split_ifs
  · rw [evalBonded, rowDot_flatMap]
    refine congrArg List.sum (List.map_congr_left fun inter hi => ?_)
    rw [rowDot_flatMap]
    refine congrArg List.sum (List.map_congr_left fun p hp => ?_)
    exact rowDot_addBead hfit hL _ _ _ (hcol sp hsp) a (hbeads.interactions _ inter hi p hp) hj
  · rw [evalNonbonded, rowDot_flatMap]
    refine congrArg List.sum (List.map_congr_left fun pair hp => ?_)
    obtain ⟨h1, h2⟩ := hbeads.NBL sp hp
    dsimp only
    rw [rowDot_append, rowDot_addBead hfit hL _ _ _ (hcol sp hsp) a h1 hj,
      rowDot_addBead hfit hL _ _ _ (hcol sp hsp) a h2 hj, Vec3.neg_get]
    split_ifs <;> simp [channelSpline, add_mul]

end Frame

/-! ## The frames of a block -/

/-- The entries the frames `confs` add to `_A` one after another from `s`, each at the frame
counter it is sampled at. -/
def framesEntries (lib : Numerics K) : CGForceMatching K → List (Topology K) → List (Entry K)
  | _, [] => []
  | s, conf :: confs =>
    frameEntries lib.sqrt s conf ++ framesEntries lib (sampleFrame lib s conf) confs

section Frames

variable {lib : Numerics K} {s : CGForceMatching K} {confs : List (Topology K)} {n : ℕ}
  {c : ℕ → K}

theorem sampleFrames_A (s : CGForceMatching K) (confs : List (Topology K)) :
    (sampleFrames lib s confs)._A = s._A.addEntries (framesEntries lib s confs) := by
  induction confs generalizing s with
  | nil => rfl
  | cons conf confs ih =>
    rw [framesEntries, UMatrix.addEntries_append, ← sampleFrame_A]
    exact ih _

/-- Every entry of a run of frames lies on a row of the `t`-th frame, for some `t`. -/
theorem mem_framesEntries (hbeads : ∀ conf ∈ confs, BeadsIn s.N conf) {e : Entry K}
    (he : e ∈ framesEntries lib s confs) :
    ∃ t < confs.length, ∃ a < 3, ∃ j < s.N,
      e.row = intIndex (s.LeastSQOffset + 3 * s.N * (s.L + t) + a * s.N + j) := by
  induction confs generalizing s with
  | nil => cases he
  | cons conf confs ih =>
    simp only [List.forall_mem_cons] at hbeads
    rcases List.mem_append.1 he with he | he
    · obtain ⟨⟨a, ha, j, hj, hrow⟩, -⟩ := mem_frameEntries hbeads.1 he
      exact ⟨0, by simp, a, ha, j, hj, hrow⟩
    · obtain ⟨t, ht, a, ha, j, hj, hrow⟩ := ih (s := sampleFrame lib s conf) hbeads.2 he
      refine ⟨t + 1, by simpa using ht, a, ha, j, hj, ?_⟩
      rw [hrow, show s.L + (t + 1) = (sampleFrame lib s conf).L + t by simp; omega]
      rfl

omit [Field K] in
/-- The rows of the frames of a block do not wrap: for `t` frames past `L` inside the block. -/
theorem intIndex_slot (hfit : RowsFit s) {t a j : ℕ} (ht : s.L + t < s.N_frames) (ha : a < 3)
    (hj : j < s.N) :
    intIndex (s.LeastSQOffset + 3 * s.N * (s.L + t) + a * s.N + j) =
      s.LeastSQOffset + 3 * s.N * (s.L + t) + a * s.N + j :=
  intIndex_of_lt ((slot_lt ht ha hj).trans hfit)

/-- **A block's rows are its frames' forces**: on the row of axis `a` of bead `j` of the `t`-th
frame, the entries of a run of frames that stays inside the block contribute that frame's
`modelForce`. -/
theorem rowDot_framesEntries (hfit : RowsFit s) (hlen : s.L + confs.length ≤ s.N_frames)
    (hcol : ∀ sp ∈ s.Splines, sp.matr_pos + 2 * sp.Spline.size ≤ n)
    (hbeads : ∀ conf ∈ confs, BeadsIn s.N conf) {t : ℕ} (ht : t < confs.length) (a : Fin 3)
    {j : ℕ} (hj : j < s.N) :
    rowDot n (framesEntries lib s confs) (s.LeastSQOffset + 3 * s.N * (s.L + t) + a * s.N + j) c =
      modelForce lib.sqrt s.Splines confs[t] j a c := by
  induction confs generalizing s t with
  | nil => simp at ht
  | cons conf confs ih =>
    have hbeads' := hbeads
    simp only [List.forall_mem_cons] at hbeads'
    simp only [List.length_cons] at hlen
    rw [framesEntries, rowDot_append]
    cases t with
    | zero =>
      have hrest : rowDot n (framesEntries lib (sampleFrame lib s conf) confs)
          (s.LeastSQOffset + 3 * s.N * (s.L + 0) + a * s.N + j) c = 0 := by
        refine rowDot_eq_zero fun e he hrow => ?_
        obtain ⟨t, ht', a', ha', j', hj', he'⟩ :=
          mem_framesEntries (s := sampleFrame lib s conf) hbeads'.2 he
        simp only [sampleFrame_L, sampleFrame_N, sampleFrame_LeastSQOffset] at he'
        rw [show s.L + 1 + t = s.L + (t + 1) by omega, intIndex_slot hfit (by omega) ha' hj'] at he'
        have := (slot_inj ha' a.isLt hj' hj (he'.symm.trans hrow)).1
        omega
      rw [hrest, add_zero, Nat.add_zero, ← frameRow_eq hfit (by omega) a.isLt hj]
      exact rowDot_frameEntries hfit (by omega) hcol hbeads'.1 a hj
    | succ t =>
      have hfirst : rowDot n (frameEntries lib.sqrt s conf)
          (s.LeastSQOffset + 3 * s.N * (s.L + (t + 1)) + a * s.N + j) c = 0 := by
        refine rowDot_eq_zero fun e he hrow => ?_
        obtain ⟨⟨a', ha', j', hj', he'⟩, -⟩ := mem_frameEntries hbeads'.1 he
        rw [frameRow_eq hfit (by omega) ha' hj'] at he'
        have := (slot_inj ha' a.isLt hj' hj (he'.symm.trans hrow)).1
        omega
      rw [hfirst, zero_add, show s.L + (t + 1) = (sampleFrame lib s conf).L + t by simp; omega]
      exact ih (s := sampleFrame lib s conf) hfit (by simp; omega) hcol hbeads'.2
        (by simpa using ht) hj

/-- Frames sampled from `s` inside the block leave the rows of `_b` of earlier frame counters
alone. -/
theorem sampleFrames_b_entry_of_lt (hfit : RowsFit s) (hlen : s.L + confs.length ≤ s.N_frames)
    {L : ℕ} (hL : L < s.L) {a j : ℕ} (ha : a < 3) (hj : j < s.N) :
    (sampleFrames lib s confs)._b.entry (s.LeastSQOffset + 3 * s.N * L + a * s.N + j) =
      s._b.entry (s.LeastSQOffset + 3 * s.N * L + a * s.N + j) := by
  induction confs generalizing s with
  | nil => rfl
  | cons conf confs ih =>
    simp only [List.length_cons] at hlen
    refine (ih (s := sampleFrame lib s conf) hfit (by simp; omega) (by simp; omega) hj).trans ?_
    simp only [sampleFrame]
    split_ifs
    · refine UVector.setEntries_entry_of_forall_ne _ _ fun p hp hrow => ?_
      obtain ⟨a', ha', j', hj', hp'⟩ := mem_forceEntries hp
      rw [frameRow_eq hfit (by omega) ha' hj'] at hp'
      have := (slot_inj ha' ha hj' hj (hp'.symm.trans hrow)).1
      omega
    · rfl

/-- **A block's right-hand side is its frames' forces**: after a run of frames inside the block,
the row of axis `a` of bead `j` of the `t`-th frame holds that frame's observed force, when it
has forces. -/
theorem sampleFrames_b_entry (hfit : RowsFit s) (hlen : s.L + confs.length ≤ s.N_frames) {t : ℕ}
    (ht : t < confs.length) (hF : confs[t].hasF) (a : Fin 3) {j : ℕ} (hj : j < s.N) :
    (sampleFrames lib s confs)._b.entry (s.LeastSQOffset + 3 * s.N * (s.L + t) + a * s.N + j) =
      (confs[t].getF j).get a := by
  induction confs generalizing s t with
  | nil => simp at ht
  | cons conf confs ih =>
    simp only [List.length_cons] at hlen
    cases t with
    | zero =>
      refine (sampleFrames_b_entry_of_lt (s := sampleFrame lib s conf) hfit (by simp; omega)
        (by simp) a.isLt hj).trans ?_
      simp only [List.getElem_cons_zero] at hF
      simp only [sampleFrame, if_pos hF, Nat.add_zero, ← frameRow_eq hfit (by omega) a.isLt hj]
      exact forceEntries_entry hfit (by omega) _ a hj
    | succ t =>
      rw [show s.L + (t + 1) = (sampleFrame lib s conf).L + t by simp; omega]
      exact ih (s := sampleFrame lib s conf) hfit (by simp; omega) (by simpa using ht) hF hj

end Frames

/-! ## Where a block starts -/

/-- The force rows of `_A` hold zeros: what a block of frames has to start from. -/
def ForceRowsClear (s : CGForceMatching K) : Prop :=
  ∀ r, s.LeastSQOffset ≤ r → ∀ col, s._A.entry r col = 0

section Start

variable {lib : Numerics K} {s : CGForceMatching K}

theorem ForceRowsClear.mulVec (h : ForceRowsClear s) {r : ℕ} (hr : s.LeastSQOffset ≤ r)
    (c : ℕ → K) : s._A.mulVec c r = 0 :=
  Finset.sum_eq_zero fun col _ => by rw [h r hr col, zero_mul]

/-- In simple mode a fresh smoothness matrix has clear force rows: its rows end at
`line_cntr = LeastSQOffset`. -/
theorem Dims.forceRowsClear (hd : Dims s) (hc : s.ConstrLeastSQ = false) {M : UMatrix K}
    (hA : s._A = fmatchAssignSmoothCondsToMatrix s.Splines M) : ForceRowsClear s := by
  intro r hr col
  have hoff := hd.offset
  simp [hc, hd.line_cntr_eq] at hoff
  rw [hA]
  exact fmatchAssignSmoothCondsToMatrix_entry_of_le hd.layout (fun sp hsp => (hd.splines sp hsp).1)
    M (hoff ▸ hr) col

/-- **Every close clears the force rows**: constrained mode clears `_A`, simple mode rewrites it
with the smoothness rows. -/
theorem closeBlock_forceRowsClear (hd : Dims s) : ForceRowsClear (closeBlock lib s) := by
  cases hc : s.ConstrLeastSQ
  · refine Dims.forceRowsClear hd.closeBlock (by simpa using hc)
      (M := (fmatchAccumulateData lib { s with BlockNum := s.BlockNum + 1 })._A) ?_
    simp [closeBlock, fmatchAccumulateData, hc]
  · intro r _ col
    simp [closeBlock, fmatchAccumulateData, hc]

variable (opts : Options K) (G : K → K → K → CubicSpline K) (BeadCount : ℕ)
  (staleA : ℕ → ℕ → K) (staleb : ℕ → K)

/-- In simple mode `BeginCG` starts the first block with clear force rows. -/
theorem beginCG_forceRowsClear (h : opts.constrainedLS = false) :
    ForceRowsClear (beginCG opts G BeadCount staleA staleb) :=
  Dims.forceRowsClear (dims_beginCG opts G BeadCount staleA staleb) (by simp [h])
    (M := UMatrix.resize (sizeType (((registerAll G opts).2.1 : CInt) + 3 * (BeadCount : CInt) *
      (opts.frames_per_block : CInt))) (registerAll G opts).2.2 staleA) (by simp [beginCG, h])

/-- In constrained mode `BeginCG` leaves in `_A` what the storage `resize (…, false)` handed out
held. -/
theorem beginCG_A_entry (h : opts.constrainedLS = true) :
    (beginCG opts G BeadCount staleA staleb)._A.entry = staleA := by
  simp [beginCG, h, UMatrix.resize]

end Start

/-! ## The system of a block -/

/-- The system `(_A, _b)` that the `k + 1`-th call of `FmatchAccumulateData` in a run of
`confs` from `s` solves: the state after `k` blocks with the frames of block `k + 1` sampled. -/
def blockSystem (lib : Numerics K) (s : CGForceMatching K) (confs : List (Topology K))
    (k : ℕ) : CGForceMatching K :=
  sampleFrames lib (afterBlocks lib k s confs) ((confs.drop (k * s.N_frames)).take s.N_frames)

/-- The system of block `k + 1` of a run of `confs` from `s0` is the force-matching problem of
the block's frames: on the row `LeastSQOffset + 3 N L + a N + j` of the `L`-th frame of the
block, for every coefficient vector `c`, `_A c` is the frame's force `modelForce`, and `_b` is
the frame's observed force when it has forces. -/
def EncodesBlock (lib : Numerics K) (s0 : CGForceMatching K) (confs : List (Topology K))
    (k : ℕ) : Prop :=
  let chunk := (confs.drop (k * s0.N_frames)).take s0.N_frames
  ∀ L (hL : L < chunk.length) (a : Fin 3), ∀ j < s0.N, ∀ c : ℕ → K,
    let row := s0.LeastSQOffset + 3 * s0.N * L + a * s0.N + j
    (blockSystem lib s0 confs k)._A.mulVec c row = modelForce lib.sqrt s0.Splines chunk[L] j a c ∧
      (chunk[L].hasF → (blockSystem lib s0 confs k)._b.entry row = (chunk[L].getF j).get a)

section Blocks

variable {lib : Numerics K} {s : CGForceMatching K} {confs : List (Topology K)}

/-- Block `k + 1` is the frames `[k N_frames, (k + 1) N_frames)` closed after the first `k`. -/
theorem afterBlocks_succ_eq (k : ℕ) (s : CGForceMatching K) (confs : List (Topology K)) :
    afterBlocks lib (k + 1) s confs =
      blockStep lib (afterBlocks lib k s confs) ((confs.drop (k * s.N_frames)).take s.N_frames) := by
  induction k generalizing s confs with
  | zero => simp [afterBlocks]
  | succ k ih =>
    rw [afterBlocks_succ, ih, blockStep_N_frames, List.drop_drop, Nat.succ_mul, Nat.add_comm]
    rfl

theorem closeBlock_blockSystem (k : ℕ) :
    closeBlock lib (blockSystem lib s confs k) = afterBlocks lib (k + 1) s confs := by
  rw [afterBlocks_succ_eq]
  rfl

/-- After every close the force rows are clear. -/
theorem afterBlocks_forceRowsClear (hd : Dims s) (k : ℕ) :
    ForceRowsClear (afterBlocks lib (k + 1) s confs) := by
  rw [← closeBlock_blockSystem]
  exact closeBlock_forceRowsClear ((hd.afterBlocks k confs).sampleFrames _)

/-- **The rows of a block's system**: with frames of the topology and rows below `2^31`, on
the row of axis `a` of bead `j` of the `L`-th frame of block `k + 1`, `_A c` is what the row held
when the block began plus the frame's `modelForce`, and `_b` holds the frame's force when it has
forces. -/
theorem blockSystem_rows (lib : Numerics K) (hd : Dims s) (hL : s.L = 0) (hfit : RowsFit s)
    (hbeads : ∀ conf ∈ confs, BeadsIn s.N conf) (k : ℕ) {L : ℕ}
    (hL' : L < ((confs.drop (k * s.N_frames)).take s.N_frames).length)
    (a : Fin 3) {j : ℕ} (hj : j < s.N) (c : ℕ → K) :
    let chunk := (confs.drop (k * s.N_frames)).take s.N_frames
    let row := s.LeastSQOffset + 3 * s.N * L + a * s.N + j
    (blockSystem lib s confs k)._A.mulVec c row =
        (afterBlocks lib k s confs)._A.mulVec c row + modelForce lib.sqrt s.Splines chunk[L] j a c ∧
      (chunk[L].hasF → (blockSystem lib s confs k)._b.entry row = (chunk[L].getF j).get a) := by
  intro chunk row
  set sk := afterBlocks lib k s confs
  have hdk : Dims sk := hd.afterBlocks k confs
  have hfitk : RowsFit sk := by simpa [RowsFit, sk] using hfit
  have hlen : sk.L + chunk.length ≤ sk.N_frames := by
    simp only [sk, afterBlocks_L hL, afterBlocks_N_frames, zero_add]
    exact List.length_take_le _ _
  have hrow : row = sk.LeastSQOffset + 3 * sk.N * (sk.L + L) + a * sk.N + j := by
    simp [row, sk, afterBlocks_L hL]
  have hbeads' : ∀ conf ∈ chunk, BeadsIn sk.N conf := fun conf h =>
    (afterBlocks_N k confs).symm ▸ hbeads conf (List.mem_of_mem_drop (List.mem_of_mem_take h))
  have hj' : j < sk.N := by simpa [sk] using hj
  refine ⟨?_, fun hF => ?_⟩
  · rw [blockSystem, sampleFrames_A, mulVec_addEntries_eq, hrow,
      rowDot_framesEntries hfitk hlen (fun sp hsp => hdk.block_le hsp) hbeads' hL' a hj',
      modelForce_afterBlocks]
  · rw [blockSystem, hrow]
    exact sampleFrames_b_entry hfitk hlen hL' hF a hj'

/-- **A block that starts from clear force rows encodes its frames.** -/
theorem encodesBlock_of_forceRowsClear (lib : Numerics K) (hd : Dims s) (hL : s.L = 0)
    (hfit : RowsFit s) (hbeads : ∀ conf ∈ confs, BeadsIn s.N conf) (k : ℕ)
    (hclear : ForceRowsClear (afterBlocks lib k s confs)) : EncodesBlock lib s confs k := by
  intro L hL' a j hj c
  obtain ⟨hA, hb⟩ := blockSystem_rows lib hd hL hfit hbeads k hL' a hj c
  exact ⟨by rw [hA, hclear.mulVec (by rw [afterBlocks_LeastSQOffset]; omega) c, zero_add], hb⟩

end Blocks

/-! ## Runs from `BeginCG` -/

/-- Constrained least squares with one bond channel of one grid point, in blocks of one
frame. -/
def oneBondConstrained : Options K := ⟨1, true, [⟨"bond", "", "", 0, 1, 1, 2⟩], []⟩

section Run

variable (lib : Numerics K) (opts : Options K) (G : K → K → K → CubicSpline K) (BeadCount : ℕ)
  (staleA : ℕ → ℕ → K) (staleb : ℕ → K)

/-- **The fit system encodes the force-matching problem**: in a run from `BeginCG` whose frames
are of the topology of `N` beads, with the rows of the force equations below `2^31`, block
`k + 1` is closed from its system `blockSystem`, and in simple mode for every block, in
constrained mode from the second block on, that system is exactly the force-matching problem
of the block's frames. -/
theorem blockSystem_encodes (hfit : RowsFit (beginCG opts G BeadCount staleA staleb))
    (confs : List (Topology K)) (hbeads : ∀ conf ∈ confs, BeadsIn BeadCount conf) (k : ℕ)
    (hk : opts.constrainedLS = false ∨ 1 ≤ k) :
    closeBlock lib (blockSystem lib (beginCG opts G BeadCount staleA staleb) confs k) =
        afterBlocks lib (k + 1) (beginCG opts G BeadCount staleA staleb) confs ∧
      EncodesBlock lib (beginCG opts G BeadCount staleA staleb) confs k := by
  have hd := dims_beginCG opts G BeadCount staleA staleb
  refine ⟨closeBlock_blockSystem k,
    encodesBlock_of_forceRowsClear lib hd (beginCG_L ..) hfit (by simpa using hbeads) k ?_⟩
  cases k with
  | zero => exact beginCG_forceRowsClear opts G BeadCount staleA staleb (hk.resolve_right (by decide))
  | succ k => exact afterBlocks_forceRowsClear hd k

/-- Two frames of two beads joined by a bond, through one bonded channel, constrained, in blocks
of one frame, over storage holding `1`: the second block encodes its frame. -/
theorem blockSystem_encodes_bond :
    RowsFit (beginCG (oneBondConstrained : Options ℚ) (fun _ _ _ => pointSpline) 2
        (fun _ _ => 1) (fun _ => 0)) ∧
      closeBlock idNumerics (blockSystem idNumerics (beginCG (oneBondConstrained : Options ℚ)
        (fun _ _ _ => pointSpline) 2 (fun _ _ => 1) (fun _ => 0)) [bondFrame, bondFrame] 1) =
        afterBlocks idNumerics 2 (beginCG (oneBondConstrained : Options ℚ)
          (fun _ _ _ => pointSpline) 2 (fun _ _ => 1) (fun _ => 0)) [bondFrame, bondFrame] ∧
      EncodesBlock idNumerics (beginCG (oneBondConstrained : Options ℚ) (fun _ _ _ => pointSpline)
        2 (fun _ _ => 1) (fun _ => 0)) [bondFrame, bondFrame] 1 :=
  have hfit : RowsFit (beginCG (oneBondConstrained : Options ℚ) (fun _ _ _ => pointSpline) 2
      (fun _ _ => 1) (fun _ => 0)) := by decide
  ⟨hfit, blockSystem_encodes idNumerics oneBondConstrained _ 2 _ _ hfit [bondFrame, bondFrame]
    (List.forall_mem_cons.2 ⟨bondFrame_beadsIn, List.forall_mem_singleton.2 bondFrame_beadsIn⟩)
    1 (.inr le_rfl)⟩

/-- **The first constrained block is solved on the stale storage**: in constrained mode the
first block's row of axis `a` of bead `j` of its `L`-th frame is, against `c`, the row of what
`resize (…, false)` handed out plus the frame's `modelForce`. -/
theorem blockSystem_first_of_constrained (h : opts.constrainedLS = true)
    (hfit : RowsFit (beginCG opts G BeadCount staleA staleb))
    (confs : List (Topology K)) (hbeads : ∀ conf ∈ confs, BeadsIn BeadCount conf) {L : ℕ}
    (hL : L < (confs.take opts.frames_per_block).length) (a : Fin 3) {j : ℕ} (hj : j < BeadCount)
    (c : ℕ → K) :
    (blockSystem lib (beginCG opts G BeadCount staleA staleb) confs 0)._A.mulVec c
        (3 * BeadCount * L + a * BeadCount + j) =
      ∑ col ∈ Finset.range (registerAll G opts).2.2,
          staleA (3 * BeadCount * L + a * BeadCount + j) col * c col +
        modelForce lib.sqrt (registerAll G opts).1 (confs.take opts.frames_per_block)[L] j a c := by
  have hd := dims_beginCG opts G BeadCount staleA staleb
  have hoff : (beginCG opts G BeadCount staleA staleb).LeastSQOffset = 0 := by
    simpa [h] using hd.offset
  obtain ⟨hA, -⟩ := blockSystem_rows lib hd (beginCG_L ..) hfit (by simpa using hbeads) 0
    (by simpa using hL) a (by simpa using hj) c
  simp only [hoff, beginCG_N, zero_add, zero_mul, List.drop_zero, beginCG_N_frames,
    beginCG_Splines] at hA
  have hsize : (beginCG opts G BeadCount staleA staleb)._A.size2 = (registerAll G opts).2.2 := by
    simp [beginCG, h, UMatrix.resize]
  rw [hA, afterBlocks, UMatrix.mulVec, beginCG_A_entry opts G BeadCount staleA staleb h, hsize]

/-- **The first constrained block is not the problem of its frame**: constrained, with one bond
channel of one grid point, one bead, blocks of one frame and storage holding `1`, a frame
without interactions already has `(_A c)_0 = 2` for `c = 1`, where its problem has force `0`. -/
theorem first_constrained_block_stale :
    (blockSystem idNumerics (beginCG (oneBondConstrained : Options ℚ) (fun _ _ _ => pointSpline)
        1 (fun _ _ => 1) (fun _ => 0)) [quietFrame] 0)._A.mulVec (fun _ => 1) 0 = 2 ∧
      modelForce id (beginCG (oneBondConstrained : Options ℚ) (fun _ _ _ => pointSpline) 1
        (fun _ _ => 1) (fun _ => 0)).Splines quietFrame 0 0 (fun _ => 1) = 0 ∧
      ¬ EncodesBlock idNumerics (beginCG (oneBondConstrained : Options ℚ)
        (fun _ _ _ => pointSpline) 1 (fun _ _ => 1) (fun _ => 0)) [quietFrame] 0 := by
  have hF : ∀ (sqrt : ℚ → ℚ) (Sp : List (SplineInfo ℚ)),
      modelForce sqrt Sp quietFrame 0 0 (fun _ => 1) = 0 := by
    intro sqrt Sp
    simp [modelForce, channelForce, NBL, quietFrame]
  have hA := blockSystem_first_of_constrained idNumerics (oneBondConstrained : Options ℚ)
    (fun _ _ _ => pointSpline) 1 (fun _ _ => 1) (fun _ => 0) rfl (by decide) [quietFrame]
    (List.forall_mem_singleton.2 quietFrame_beadsIn) (L := 0) (by decide) 0 (j := 0) (by decide)
    (fun _ => 1)
  simp only [oneBondConstrained, List.take_succ_cons, List.take_zero, List.getElem_cons_zero, hF,
    Finset.sum_const, Finset.card_range, mul_one, add_zero] at hA
  have h2 : (blockSystem idNumerics (beginCG (oneBondConstrained : Options ℚ)
      (fun _ _ _ => pointSpline) 1 (fun _ _ => 1) (fun _ => 0)) [quietFrame] 0)._A.mulVec
        (fun _ => 1) 0 = 2 := by
    refine hA.trans ?_
    norm_num [registerAll, registerSpline, pointSpline]
  refine ⟨h2, hF _ _, fun h => ?_⟩
  have h0 := h2.symm.trans (((h 0 (by decide) 0 0 (by decide) (fun _ => 1)).1).trans (hF _ _))
  norm_num at h0

end Run

end Votca
