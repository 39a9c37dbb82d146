import Votca.Fmatch.Run

/-!
# Runs from `BeginCG`: the frame counter, the rows and the column layout

The statements here are about the states a run started by `BeginCG` passes through. The state
on entry to the `k`-th call of `EvalConfiguration` is the one `run` returns on the first `k`
frames, so "at every call" reads "for every prefix of the trajectory".

Proof shape: `BeginCG` establishes `Dims` and `run` keeps it (`Dims.run`); `run_sameSetup`
says the offsets and counts never change; `run_counter` gives `L` and `BlockNum` at every
prefix. The row statements then follow from the per-frame lemmas `mem_frameEntries`,
`frameRow_mem` and `frameRow_inj`, and the layout statements from the `Layout` lemmas of
`BeginCG`. The rows hold only while `LeastSQOffset + 3 N N_frames` fits in an `int`
(`RowsFit`): past `2^31` the sizes wrap and a frame writes past the end of `_b`
(`beginCG_rows_wrap`).
-/

namespace Votca

variable {K : Type*} [Field K]

/-- What a run of `confs` from `s0` does with `N` beads and blocks of `N_frames` frames: it is
`m / N_frames` whole blocks, each ending in one `FmatchAccumulateData`, then the unfinished
block, and ends with `L = m % N_frames` and `BlockNum = m / N_frames`; on entry to every call
`L < N_frames`, and every row the call writes into `_A` or `_b` is the row `frameRow s a j` of an
axis `a < 3` and a bead `j < N`, which is `LeastSQOffset + 3 N L + a N + j` without wrapping,
lies in `[LeastSQOffset, LeastSQOffset + 3 N N_frames) ⊆ [0, _A.size1()) = [0, _b.size())`,
and past the smoothness rows in simple mode; distinct `(L, a, j)` give distinct rows. -/
def CounterRows (lib : Numerics K) (s0 : CGForceMatching K) (N N_frames : ℕ)
    (confs : List (Topology K)) : Prop :=
  (run lib s0 confs = .ok (sampleFrames lib (afterBlocks lib (confs.length / N_frames) s0 confs)
      (confs.drop (confs.length / N_frames * N_frames))) ∧
    ∀ s, run lib s0 confs = .ok s → s.L = confs.length % N_frames ∧
      s.BlockNum = confs.length / N_frames) ∧
  (∀ k (hk : k < confs.length), ∃ s, run lib s0 (confs.take k) = .ok s ∧ s.L < N_frames ∧
    (∀ e ∈ frameEntries lib.sqrt s confs[k], ∃ a < 3, ∃ j < N, e.row = frameRow s a j) ∧
    (∀ p ∈ forceEntries s confs[k], ∃ a < 3, ∃ j < N, p.1 = frameRow s a j) ∧
    ∀ a < 3, ∀ j < N, frameRow s a j = s.LeastSQOffset + 3 * N * s.L + a * N + j ∧
      s.LeastSQOffset ≤ frameRow s a j ∧
      frameRow s a j < s.LeastSQOffset + 3 * N * N_frames ∧
      s.LeastSQOffset + 3 * N * N_frames = s._A.size1 ∧ s._A.size1 = s._b.size ∧
      (s.ConstrLeastSQ = false → s.line_cntr ≤ frameRow s a j)) ∧
  ∀ k k' s s', run lib s0 (confs.take k) = .ok s → run lib s0 (confs.take k') = .ok s' →
    ∀ a a' j j', a < 3 → a' < 3 → j < N → j' < N →
      frameRow s a j = frameRow s' a' j' → s.L = s'.L ∧ a = a' ∧ j = j'

/-- The column layout of a state, as `BeginCG` sets it up: the channels are the bonded options
then the non-bonded ones, each with the grid size `GenerateGrid` gives it; channel `c` starts
at column `2 Σ_{t<c} (n_t + 1)`, `line_cntr = Σ (n_t + 1)` and `col_cntr = 2 line_cntr`; the
column blocks are disjoint and tile `[0, col_cntr)`; every read `_x[i + matr_pos]` into
`block_res` is in range; `FmatchAssignSmoothCondsToMatrix` writes channel `c`'s smoothness rows
at row offset `matr_pos / 2 = Σ_{t<c} (n_t + 1)` and column offset `matr_pos`, inside the
channel's blocks, and the row blocks are disjoint and tile `[0, line_cntr)`, which is
`[0, LeastSQOffset)` in simple mode; and the split at half of `_A.size2()` and of `_x.size()`
is `line_cntr`, the number of reflectors of `B_constrᵀ`. -/
def ColumnLayout (opts : Options K) (G : K → K → K → CubicSpline K) (s : CGForceMatching K) :
    Prop :=
  s.Splines.map (fun sp => (sp.knots, sp.bonded)) =
      opts.bonded.map (fun o => ((G o.min o.max o.step).size, true)) ++
        opts.nonbonded.map (fun o => ((G o.min o.max o.step).size, false)) ∧
    (∀ c (hc : c < s.Splines.length),
      s.Splines[c].matr_pos = 2 * totalKnots (s.Splines.take c)) ∧
    s.line_cntr = totalKnots s.Splines ∧ s.col_cntr = 2 * s.line_cntr ∧
    (∀ c t (hc : c < s.Splines.length) (ht : t < s.Splines.length), c ≠ t → ∀ col,
      s.Splines[c].matr_pos ≤ col ∧ col < s.Splines[c].matr_pos + 2 * s.Splines[c].knots →
      ¬ (s.Splines[t].matr_pos ≤ col ∧ col < s.Splines[t].matr_pos + 2 * s.Splines[t].knots)) ∧
    (∀ col < s.col_cntr, ∃ c, ∃ hc : c < s.Splines.length,
      s.Splines[c].matr_pos ≤ col ∧ col < s.Splines[c].matr_pos + 2 * s.Splines[c].knots) ∧
    (∀ c (hc : c < s.Splines.length), ∀ i < 2 * s.Splines[c].knots,
      i + s.Splines[c].matr_pos < s._x.size) ∧
    (∀ M, fmatchAssignSmoothCondsToMatrix s.Splines M =
      s.Splines.foldl (fun M sp => sp.Spline.addBCToFitMatrix M (sp.matr_pos / 2) sp.matr_pos)
        M.clear) ∧
    (∀ c (hc : c < s.Splines.length),
      s.Splines[c].matr_pos / 2 = totalKnots (s.Splines.take c) ∧
        ∀ e ∈ s.Splines[c].Spline.bc, e.1 < s.Splines[c].knots ∧ e.2.1 < 2 * s.Splines[c].knots) ∧
    (∀ r < s.line_cntr, ∃ c, ∃ hc : c < s.Splines.length,
      s.Splines[c].matr_pos / 2 ≤ r ∧ r < s.Splines[c].matr_pos / 2 + s.Splines[c].knots) ∧
    (∀ c t (hc : c < s.Splines.length) (ht : t < s.Splines.length), c ≠ t → ∀ r,
      s.Splines[c].matr_pos / 2 ≤ r ∧ r < s.Splines[c].matr_pos / 2 + s.Splines[c].knots →
      ¬ (s.Splines[t].matr_pos / 2 ≤ r ∧ r < s.Splines[t].matr_pos / 2 + s.Splines[t].knots)) ∧
    (s.ConstrLeastSQ = false → s.LeastSQOffset = s.line_cntr) ∧
    s._A.size2 / 2 = s.line_cntr ∧ s._x.size / 2 = s.line_cntr ∧
    (s.ConstrLeastSQ = true → min s.B_constr.size2 s.B_constr.size1 = s.line_cntr)

/-! ## Small configurations -/

/-- A grid of one point whose only basis weight is `1`. -/
def pointSpline : CubicSpline K := ⟨1, fun _ => 0, fun _ => [(0, 1)], [], by simp, by simp⟩

/-- One bonded channel `bond`, simple least squares, blocks of one frame. -/
def oneBond : Options K := ⟨1, false, [⟨"bond", "", "", 0, 1, 1, 2⟩], []⟩

/-- The bonded channel `bond` and the non-bonded channel `pair` of beads of type `A`, simple
least squares, blocks of one frame. -/
def twoChannels : Options K :=
  ⟨1, false, [⟨"bond", "", "", 0, 1, 1, 2⟩], [⟨"pair", "A", "A", 0, 1, 1, 2⟩]⟩

/-- A frame of one bead with force zero, no interactions and no neighbours. -/
def quietFrame : Topology K :=
  ⟨[⟨true, ⟨0, 0, 0⟩⟩], List.cons_ne_nil _ _, fun _ => [], fun _ _ => [], fun _ _ _ => []⟩

/-- A frame of two beads joined by one bond of the group `bond`, of length `1` and gradients
`±x`, with observed forces `(2, 0, 0)` on bead `0` and `(-2, 0, 0)` on bead `1`. -/
def bondFrame : Topology K :=
  ⟨[⟨true, ⟨2, 0, 0⟩⟩, ⟨true, ⟨-2, 0, 0⟩⟩], List.cons_ne_nil _ _,
    fun name => if name = "bond" then [⟨[(0, ⟨1, 0, 0⟩), (1, ⟨-1, 0, 0⟩)], 1⟩] else [],
    fun _ _ => [], fun _ _ _ => []⟩

theorem quietFrame_beadsIn : BeadsIn 1 (quietFrame : Topology K) :=
  ⟨rfl, fun _ _ h => (nomatch h), fun _ _ _ h => (nomatch h), fun _ _ _ _ h => (nomatch h)⟩

theorem bondFrame_beadsIn : BeadsIn 2 (bondFrame : Topology K) := by
  refine ⟨rfl, fun name inter hi p hp => ?_, fun _ _ _ h => (nomatch h),
    fun _ _ _ _ h => (nomatch h)⟩
  simp only [bondFrame] at hi
  split_ifs at hi
  · simp only [List.mem_singleton] at hi
    subst hi
    simp only [List.mem_cons, List.mem_singleton, List.not_mem_nil, or_false] at hp
    rcases hp with rfl | rfl <;> simp
  · cases hi

section FromBeginCG

variable (lib : Numerics K) (opts : Options K) (G : K → K → K → CubicSpline K)
  (BeadCount : ℕ) (staleA : ℕ → ℕ → K) (staleb : ℕ → K)

/-- **The counter and the rows of a run.** With `N_frames ≥ 1`, every frame one of the
topology of `N` beads, and the rows of the force equations below `2^31`, every run from
`BeginCG`, in either mode, does what `CounterRows` says. -/
theorem run_counter_rows (hN : 0 < opts.frames_per_block)
    (hfit : RowsFit (beginCG opts G BeadCount staleA staleb)) (confs : List (Topology K))
    (hbeads : ∀ conf ∈ confs, BeadsIn BeadCount conf) :
    CounterRows lib (beginCG opts G BeadCount staleA staleb) BeadCount opts.frames_per_block
      confs := by
  set s0 := beginCG opts G BeadCount staleA staleb
  have hN0 : 0 < s0.N_frames := by simpa [s0] using hN
  have hL0 : s0.L = 0 := beginCG_L ..
  have hdims := dims_beginCG opts G BeadCount staleA staleb
  refine ⟨⟨by simpa [s0] using run_eq_blocks lib hN0 hL0 confs, fun s hs => ?_⟩,
    fun k hk => ?_, ?_⟩
  · obtain ⟨s', hs', hL, hB⟩ := run_counter lib hN0 hL0 confs
    rw [hs] at hs'
    cases hs'
    simpa [s0] using And.intro hL hB
  · obtain ⟨s, hs, -, -⟩ := run_counter lib hN0 hL0 (confs.take k)
    have hsame := run_sameSetup hs
    have hd := hdims.run hs
    have hfits : RowsFit s := (run_rowsFit hs).2 hfit
    have hNs : s.N = BeadCount := by rw [hsame.N]; simp [s0]
    have hNf : s.N_frames = opts.frames_per_block := by rw [hsame.N_frames]; simp [s0]
    have hLlt : s.L < s.N_frames := run_L_lt hN0 hL0 hs
    have hb : BeadsIn s.N confs[k] := hNs ▸ hbeads _ (List.getElem_mem hk)
    refine ⟨s, hs, hNf ▸ hLlt, fun e he => hNs ▸ (mem_frameEntries hb he).1,
      fun p hp => hNs ▸ mem_forceEntries hp, fun a ha j hj => ?_⟩
    have hrow := frameRow_eq hfits hLlt ha (hNs ▸ hj)
    obtain ⟨hlo, hhi⟩ := frameRow_mem hfits hLlt ha (hNs ▸ hj)
    refine ⟨hNs ▸ hrow, hlo, by rwa [hNs, hNf] at hhi, by rw [hd.A_size1_of_fit hfits, hNs, hNf],
      hd.b_size.symm, fun hc => ?_⟩
    have hoff := hd.offset
    simp [hc] at hoff
    omega
  · intro k k' s s' hs hs' a a' j j' ha ha' hj hj' h
    have h1 := run_sameSetup hs
    have h2 := run_sameSetup hs'
    have hNs : s.N = BeadCount := by rw [h1.N]; simp [s0]
    exact frameRow_inj ((run_rowsFit hs).2 hfit) ((run_rowsFit hs').2 hfit)
      (run_L_lt hN0 hL0 hs) (run_L_lt hN0 hL0 hs')
      (h1.LeastSQOffset.trans h2.LeastSQOffset.symm) (h1.N.trans h2.N.symm)
      ha ha' (hNs ▸ hj) (hNs ▸ hj') h

/-- Two frames of two beads joined by a bond, through one bonded channel, in blocks of one
frame. -/
theorem run_counter_rows_bond :
    0 < (oneBond : Options ℚ).frames_per_block ∧
      RowsFit (beginCG (oneBond : Options ℚ) (fun _ _ _ => pointSpline) 2 (fun _ _ => 0)
        (fun _ => 0)) ∧
      CounterRows idNumerics (beginCG (oneBond : Options ℚ) (fun _ _ _ => pointSpline) 2
        (fun _ _ => 0) (fun _ => 0)) 2 1 [bondFrame, bondFrame] :=
  have hfit : RowsFit (beginCG (oneBond : Options ℚ) (fun _ _ _ => pointSpline) 2 (fun _ _ => 0)
      (fun _ => 0)) := by decide
  ⟨by decide, hfit, run_counter_rows idNumerics oneBond (fun _ _ _ => pointSpline) 2
    (fun _ _ => 0) (fun _ => 0) (by decide) hfit [bondFrame, bondFrame]
    (by simp only [List.mem_cons, List.mem_singleton, List.not_mem_nil, or_false,
      forall_eq_or_imp, forall_eq]; exact ⟨bondFrame_beadsIn, bondFrame_beadsIn⟩)⟩

/-- Constrained least squares with one bonded channel, in blocks of `1366` frames. -/
def bigBlocks : Options K := ⟨1366, true, [⟨"bond", "", "", 0, 1, 1, 2⟩], []⟩

/-- **The rows of a large block wrap in `int`.** For `N = 2^20` beads in blocks of `1366`
frames, `3 N N_frames = 4297064448` is past `2^31`: `BeginCG` sizes `_A` and `_b` from the
wrapped `int`, `2097152` rows, yet for every frame the force loop of the first call writes the
`z` force of the last bead to row `3145727`, past the end of `_b`. -/
theorem beginCG_rows_wrap (conf : Topology ℚ) :
    ¬ RowsFit (beginCG (bigBlocks : Options ℚ) (fun _ _ _ => pointSpline) (2 ^ 20)
        (fun _ _ => 0) (fun _ => 0)) ∧
      (beginCG (bigBlocks : Options ℚ) (fun _ _ _ => pointSpline) (2 ^ 20) (fun _ _ => 0)
        (fun _ => 0))._A.size1 = 2097152 ∧
      (beginCG (bigBlocks : Options ℚ) (fun _ _ _ => pointSpline) (2 ^ 20) (fun _ _ => 0)
        (fun _ => 0))._b.size = 2097152 ∧
      (3145727, (conf.getF (2 ^ 20 - 1)).z) ∈ forceEntries (beginCG (bigBlocks : Options ℚ)
        (fun _ _ _ => pointSpline) (2 ^ 20) (fun _ _ => 0) (fun _ => 0)) conf := by
  refine ⟨by decide, by decide, by decide, ?_⟩
  simp only [forceEntries, List.mem_flatMap, List.mem_range]
  refine ⟨2 ^ 20 - 1, by simp, ?_⟩
  simp only [List.mem_cons, Prod.mk.injEq, and_true]
  exact .inr (.inr (.inl (by decide)))

/-- The registration of the channels is the same in every state of a run. -/
theorem run_registration {s0 s : CGForceMatching K} {confs : List (Topology K)}
    (hs : run lib s0 confs = .ok s) :
    s.Splines.map (fun sp => (sp.knots, sp.bonded)) =
      s0.Splines.map fun sp => (sp.knots, sp.bonded) :=
  run_induction lib (fun t : CGForceMatching K =>
      t.Splines.map (fun sp : SplineInfo K => (sp.knots, sp.bonded)) =
        s0.Splines.map fun sp => (sp.knots, sp.bonded))
    (fun _ _ h => h) (fun _ h => by simpa [Function.comp_def] using h) rfl hs

/-- **The column layout of every state.** In every state of a run from `BeginCG`, in either
mode, the channels are the bonded options then the non-bonded ones, each with the grid size
`GenerateGrid` gave it, and `ColumnLayout` holds. -/
theorem run_columnLayout (confs : List (Topology K)) (s : CGForceMatching K)
    (hs : run lib (beginCG opts G BeadCount staleA staleb) confs = .ok s) :
    ColumnLayout opts G s := by
  have hd := (dims_beginCG opts G BeadCount staleA staleb).run hs
  have hreg := run_registration lib hs
  rw [beginCG_Splines, registerAll_fst] at hreg
  have hlay := hd.layout
  have hpos : ∀ c (hc : c < s.Splines.length),
      s.Splines[c].matr_pos = 2 * totalKnots (s.Splines.take c) := fun c hc => by
    simpa using hlay.matr_pos_eq hc
  have hcol : s.col_cntr = 2 * totalKnots s.Splines := by rw [hd.col_cntr_eq, hd.line_cntr_eq]
  have hcover : ∀ col < s.col_cntr, ∃ c, ∃ hc : c < s.Splines.length,
      s.Splines[c].matr_pos ≤ col ∧ col < s.Splines[c].matr_pos + 2 * s.Splines[c].knots :=
    fun col h => hlay.cover (by omega)
  refine ⟨hreg, hpos, hd.line_cntr_eq, hd.col_cntr_eq, fun c t hc ht hct col => hlay.disjoint hc ht hct,
    hcover, fun c hc i hi => ?_, fmatchAssignSmoothCondsToMatrix_eq hlay, fun c hc => ?_,
    fun r hr => ?_, fun c t hc ht hct r hr hr' => ?_, fun h => by simpa [h] using hd.offset,
    by rw [hd.A_size2, hd.col_cntr_eq]; omega, by rw [hd.x_size, hd.col_cntr_eq]; omega,
    fun h => ?_⟩
  · have := (hlay.block_le hc).2
    rw [hd.x_size, hcol]
    omega
  · have hk := (hd.splines _ (List.getElem_mem hc)).1
    refine ⟨by rw [hpos c hc]; omega, fun e he => ?_⟩
    have := s.Splines[c].Spline.bc_lt e he
    omega
  · obtain ⟨c, hc, h1, h2⟩ := hcover (2 * r) (by rw [hd.col_cntr_eq]; omega)
    exact ⟨c, hc, by rw [hpos c hc] at h1 h2 ⊢; omega⟩
  · refine hlay.disjoint hc ht hct (c := 2 * r) ?_ ?_ <;> rw [hpos _ hc] at hr <;>
      rw [hpos _ ht] at hr' <;> simp only [hpos] <;> omega
  · obtain ⟨h1, h2⟩ := hd.B_constr_size h
    rw [h1, h2, hd.col_cntr_eq]
    omega

/-- The layout after a full block, a frame with a bond, with a bonded and a non-bonded
channel. -/
theorem run_columnLayout_twoChannels :
    ∃ s, run idNumerics (beginCG (twoChannels : Options ℚ) (fun _ _ _ => pointSpline) 2
        (fun _ _ => 0) (fun _ => 0)) [bondFrame] = .ok s ∧
      ColumnLayout (twoChannels : Options ℚ) (fun _ _ _ => pointSpline) s := by
  obtain ⟨s, hs, -⟩ := run_counter idNumerics (s := beginCG (twoChannels : Options ℚ)
    (fun _ _ _ => pointSpline) 2 (fun _ _ => 0) (fun _ => 0)) (by decide) (beginCG_L ..)
    [bondFrame]
  exact ⟨s, hs, run_columnLayout idNumerics twoChannels _ 2 _ _ [bondFrame] s hs⟩

end FromBeginCG

end Votca
