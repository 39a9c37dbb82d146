import Votca.Fmatch.EndCG

/-!
# The block statistics are a mean and a standard deviation

Every solved block adds, at every output point, its spline value to `resSum` and the square to
`resSum2` (`accumulateBlocks_resSum`); a run from `BeginCG` starts both at zero and sees its
channels only through `FmatchAccumulateData` (`afterBlocks_Splines`), so after `B` blocks they
are the sum and the sum of squares of the `B` block values. `EndCG` divides by `B`, and over the
reals `resSum2 / B - (resSum / B)²` is the mean squared deviation of the block values: `error` is
their population standard deviation, zero exactly when all blocks agree.
-/

namespace Votca

open Finset

/-! ## Mean and variance of finitely many values -/

section Variance

variable (y : ℕ → ℝ) (B : ℕ)

theorem sum_map_range {K : Type*} [AddCommMonoid K] (f : ℕ → K) (n : ℕ) :
    ((List.range n).map f).sum = ∑ k ∈ range n, f k := by
  induction n with
  | zero => simp
  | succ n ih => simp [List.range_succ, sum_range_succ, ih]

/-- The mean of the squares less the square of the mean is the mean squared deviation. -/
theorem variance_eq (hB : 0 < B) :
    (∑ k ∈ range B, y k ^ 2) / B - (∑ k ∈ range B, y k) / B * ((∑ k ∈ range B, y k) / B) =
      (∑ k ∈ range B, (y k - (∑ k ∈ range B, y k) / B) ^ 2) / B := by
  set μ := (∑ k ∈ range B, y k) / B
  have hB' : (B : ℝ) ≠ 0 := by positivity
  have hsum : ∑ k ∈ range B, y k = B * μ := (mul_div_cancel₀ _ hB').symm
  have hdev : ∑ k ∈ range B, (y k - μ) ^ 2 = ∑ k ∈ range B, y k ^ 2 - B * μ ^ 2 := by
    simp only [sub_sq, sum_add_distrib, sum_sub_distrib, ← sum_mul, ← mul_sum, hsum, sum_const,
      card_range, nsmul_eq_mul]
    ring
  rw [hdev, sub_div, mul_div_cancel_left₀ _ hB', sq]

/-- The square root of the mean squared deviation vanishes exactly when all values agree. -/
theorem sqrt_variance_eq_zero_iff (hB : 0 < B) :
    Real.sqrt ((∑ k ∈ range B, (y k - (∑ k ∈ range B, y k) / B) ^ 2) / B) = 0 ↔
      ∀ k < B, y k = (∑ k ∈ range B, y k) / B := by
  set μ := (∑ k ∈ range B, y k) / B
  have hB' : (0 : ℝ) < B := by exact_mod_cast hB
  have hS : 0 ≤ ∑ k ∈ range B, (y k - μ) ^ 2 := sum_nonneg fun _ _ => sq_nonneg _
  rw [Real.sqrt_eq_zero', div_le_iff₀ hB', zero_mul, hS.ge_iff_eq, eq_comm,
    sum_eq_zero_iff_of_nonneg fun _ _ => sq_nonneg _]
  simp [sub_eq_zero]

end Variance

/-- **A registered channel's sums**: from the zero statistics `BeginCG` gives it, the blocks
`x 0, …, x (B - 1)` leave in `resSum` and `resSum2` the sum and the sum of squares of their
spline values. -/
theorem accumulateBlocks_registered {K : Type*} [Field K] {G : K → K → K → CubicSpline K}
    {opts : Options K} {sp : SplineInfo K} (hsp : sp ∈ (registerAll G opts).1)
    (x : ℕ → UVector K) (B : ℕ) {i : ℕ} (hi : i < sp.res_output_coeff * sp.knots) :
    (accumulateBlocks sp ((List.range B).map x)).resSum.entry i =
        ∑ k ∈ range B, blockValue sp (x k).entry i ∧
      (accumulateBlocks sp ((List.range B).map x)).resSum2.entry i =
        ∑ k ∈ range B, blockValue sp (x k).entry i ^ 2 := by
  obtain ⟨h1, h2⟩ := accumulateBlocks_resSum sp (registerAll_sizes G opts sp hsp).1 _ hi
  obtain ⟨h01, h02⟩ := registerAll_resSum G opts sp hsp i
  rw [h1, h2, h01, h02, zero_add, zero_add, List.map_map, List.map_map, sum_map_range,
    sum_map_range]
  exact ⟨rfl, sum_congr rfl fun k _ => (sq _).symm⟩

/-! ## The statistics of a run -/

/-- The block statistics of a run of `confs` from `s0` in blocks of `N_frames` frames, over the
reals. The run ends after `B = m / N_frames` blocks. At every output point `i` of every channel,
`resSum` and `resSum2` are the sum and the sum of squares of the values `y k` at `i` of the
spline loaded from the `k`-th block's solution. Once `B ≥ 1`, the radicand
`resSum2 / B - mean²` of the error is the mean squared deviation of the `y k`: it is nonnegative,
and its square root vanishes exactly when all `y k` agree. And when every channel's name fits
`file_name` and its `res_output_coeff (n + 1)` output points are at least the `2 (n + 1)` values
`setSplineData(result)` reads, `EndCG` returns, with `result = mean` and
`error = sqrt(resSum2 / B - mean²)` there. -/
def BlockStatistics (lib : Numerics ℝ) (s0 : CGForceMatching ℝ) (N_frames : ℕ)
    (confs : List (Topology ℝ)) : Prop :=
  ∃ s, run lib s0 confs = .ok s ∧ s.BlockNum = confs.length / N_frames ∧
    ∀ c (hc : c < s.Splines.length), ∀ i < s.Splines[c].res_output_coeff * s.Splines[c].knots,
      let B := confs.length / N_frames
      let y := fun k => blockValue s.Splines[c] (blockX lib s0 confs k).entry i
      let mean := (∑ k ∈ range B, y k) / B
      s.Splines[c].resSum.entry i = ∑ k ∈ range B, y k ∧
      s.Splines[c].resSum2.entry i = ∑ k ∈ range B, y k ^ 2 ∧
      (1 ≤ B →
        s.Splines[c].resSum2.entry i / B - mean * mean =
          (∑ k ∈ range B, (y k - mean) ^ 2) / B ∧
        0 ≤ s.Splines[c].resSum2.entry i / B - mean * mean ∧
        (Real.sqrt (s.Splines[c].resSum2.entry i / B - mean * mean) = 0 ↔ ∀ k < B, y k = mean) ∧
        ((∀ sp ∈ s.Splines, sp.splineName.utf8ByteSize ≤ 13 ∧
            2 * sp.knots ≤ sp.res_output_coeff * sp.knots) →
          ∃ s' files, endCG lib s = .ok (s', files) ∧ ∃ hc' : c < s'.Splines.length,
            s'.Splines[c].result.entry i = mean ∧
            s'.Splines[c].error.entry i =
              Real.sqrt (s.Splines[c].resSum2.entry i / B - mean * mean)))

/-- A name too long for `file_name`: one bonded channel `bond_length_ab` of 14 bytes, one bead,
blocks of one frame. -/
def longName {K : Type*} [Field K] : Options K := ⟨1, false, [⟨"bond_length_ab", "", "", 0, 1, 1, 2⟩], []⟩

end Votca
