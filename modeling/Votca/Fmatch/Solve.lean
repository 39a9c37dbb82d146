import Votca.Fmatch.BeginCG
import Votca.Fmatch.Householder

/-!
# `FmatchAccumulateData`: one block's solve and its statistics

At the end of every block `FmatchAccumulateData` solves the fit system and adds, for every
channel, the spline of the new coefficients at the output points to `resSum` and its square to
`resSum2`. The solve has two branches:

* unconstrained (`simpleSolve`): GSL's QR least squares on `_A`, whose storage the
  factorisation overwrites in place;
* constrained (`constrainedSolve`): factor `B_constrᵀ = Q R`, rebuild `Q` (`reconstructQ`),
  set `_A = _A Q`, solve least squares on the right half `A2` of `_A`, and back-project
  `_x = Q [0; x]`.

GSL's routines are the `Numerics` collaborator; the proofs about the constrained branch assume
only what `gsl_linalg_QR_decomp` promises about its output, and nothing of `QR_lssolve`.
-/

namespace Votca

open Finset Matrix

variable {K : Type*} [Field K]

/-! ## ublas products -/

/-- A square Mathlib matrix as ublas storage, zero outside its `n × n` entries. -/
def ofMatrix {n : ℕ} (Q : Matrix (Fin n) (Fin n) K) : ℕ → ℕ → K :=
  fun i j => if h : i < n ∧ j < n then Q ⟨i, h.1⟩ ⟨j, h.2⟩ else 0

@[simp] theorem ofMatrix_apply {n : ℕ} (Q : Matrix (Fin n) (Fin n) K) (i j : Fin n) :
    ofMatrix Q i j = Q i j := by
  simp [ofMatrix]

/-! ## The constrained branch -/

section Constrained

variable (lib : Numerics K)

/-- `B_constr_Tr = trans(B_constr)`, factored in place by `gsl_linalg_QR_decomp`: the packed
factor `B_t` (`col_cntr × line_cntr`) and `tau` (`line_cntr`). -/
def constrFactor (B_constr : UMatrix K) (line_cntr col_cntr : ℕ) : (ℕ → ℕ → K) × (ℕ → K) :=
  lib.QR_decomp col_cntr line_cntr fun i j => B_constr.entry j i

/-- `Q`, rebuilt from the reflectors of `constrFactor` and transposed. -/
def constrQ (B_constr : UMatrix K) (line_cntr col_cntr : ℕ) :
    Matrix (Fin col_cntr) (Fin col_cntr) K :=
  reconstructQ col_cntr line_cntr (constrFactor lib B_constr line_cntr col_cntr).1
    (constrFactor lib B_constr line_cntr col_cntr).2

/-- `_A = prec_prod(_A, Q)`: `_A.size1() × col_cntr`. -/
def constrAQ {n : ℕ} (A : UMatrix K) (Q : Matrix (Fin n) (Fin n) K) : UMatrix K :=
  ⟨A.size1, n, fun i j => ∑ k ∈ range n, A.entry i k * ofMatrix Q k j⟩

/-- `A2`, sized `_A.size1() × col_cntr/2` and cleared, then
`A2(iraw, icol - _A.size2()/2) = _A(iraw, icol)` for the columns of the right half of `_A`. -/
def constrA2 (AQ : UMatrix K) (col_cntr : ℕ) : UMatrix K :=
  ⟨AQ.size1, col_cntr / 2, fun i j =>
    if j < AQ.size2 - AQ.size2 / 2 then AQ.entry i (j + AQ.size2 / 2) else 0⟩

/-- `gsl_linalg_QR_decomp` then `gsl_linalg_QR_lssolve` on `A2` and `_b`: the free
coefficients `x`. -/
def constrXfree (A2 : UMatrix K) (b : ℕ → K) : ℕ → K :=
  lib.QR_lssolve A2.size1 A2.size2 (lib.QR_decomp A2.size1 A2.size2 A2.entry).1
    (lib.QR_decomp A2.size1 A2.size2 A2.entry).2 b

/-- `_x` before the back-projection: `0` on the first half of its `xsize` entries, the free
coefficients on the second. -/
def constrY (xsize : ℕ) (xfree : ℕ → K) : ℕ → K :=
  fun i => if i < xsize / 2 then 0 else if i < xsize then xfree (i - xsize / 2) else 0

/-- `_x = prec_prod(Q, _x)`. -/
def constrX {n : ℕ} (Q : Matrix (Fin n) (Fin n) K) (y : ℕ → K) : ℕ → K :=
  fun i => ∑ k ∈ range n, ofMatrix Q i k * y k

/-- The constrained branch of `FmatchAccumulateData`: the new `_A` and `_x`. -/
def constrainedSolve (A : UMatrix K) (b x : UVector K) (B_constr : UMatrix K)
    (line_cntr col_cntr : ℕ) : UMatrix K × UVector K :=
  let Q := constrQ lib B_constr line_cntr col_cntr
  let AQ := constrAQ A Q
  let xfree := constrXfree lib (constrA2 AQ col_cntr) b.entry
  (AQ, ⟨col_cntr, constrX Q (constrY x.size xfree)⟩)

end Constrained

/-! ## The unconstrained branch -/

/-- The unconstrained branch: `gsl_linalg_QR_decomp` overwrites `_A` with its packed factor,
`gsl_linalg_QR_lssolve` writes `x`, and `_x(i) = x(i)` for `i < _x.size()`. -/
def simpleSolve (lib : Numerics K) (A : UMatrix K) (b x : UVector K) : UMatrix K × UVector K :=
  let f := lib.QR_decomp A.size1 A.size2 A.entry
  let xs := lib.QR_lssolve A.size1 A.size2 f.1 f.2 b.entry
  (⟨A.size1, A.size2, f.1⟩, ⟨x.size, fun i => if i < x.size then xs i else 0⟩)

/-! ## Block statistics -/

/-- The value the block's spline takes at output point `i`: the spline loaded with the block's
coefficients `_x[matr_pos, matr_pos + 2(n+1))`, at `getGridPoint(0) + i * del_x_out`. -/
def blockValue (sp : SplineInfo K) (x : ℕ → K) (i : ℕ) : K :=
  sp.Spline.calculate (fun j => x (j + sp.matr_pos))
    (sp.Spline.getGridPoint 0 + i * sp.del_x_out)

/-- The loop over the output points: `resSum[i] += Calculate(out_x)`,
`resSum2[i] += Calculate(out_x)²`, `out_x += del_x_out`. -/
def accumulateOutput (sp : SplineInfo K) (f : K → K) (pts : List ℕ)
    (acc : K × UVector K × UVector K) : K × UVector K × UVector K :=
  pts.foldl (fun (acc : K × UVector K × UVector K) i =>
      (acc.1 + sp.del_x_out, acc.2.1.set i (acc.2.1.entry i + f acc.1),
        acc.2.2.set i (acc.2.2.entry i + f acc.1 * f acc.1))) acc

/-- One channel of the statistics loop of `FmatchAccumulateData`: copy the block's slice of
`_x` into `block_res`, load it with `setSplineData`, and accumulate over the output points. -/
def accumulateSpline (x : UVector K) (sp : SplineInfo K) : SplineInfo K :=
  let block_res := (List.range (2 * sp.knots)).foldl
    (fun v i => v.set i (x.entry (i + sp.matr_pos))) sp.block_res
  let r := accumulateOutput sp (sp.Spline.calculate block_res.entry)
    (List.range (sp.res_output_coeff * sp.knots)) (sp.Spline.getGridPoint 0, sp.resSum, sp.resSum2)
  { sp with block_res := block_res, resSum := r.2.1, resSum2 := r.2.2 }

/-- `FmatchAccumulateData()`: solve the block, then accumulate every channel's statistics. -/
def fmatchAccumulateData (lib : Numerics K) (s : CGForceMatching K) : CGForceMatching K :=
  let r := if s.ConstrLeastSQ then
      constrainedSolve lib s._A s._b s._x s.B_constr s.line_cntr s.col_cntr
    else simpleSolve lib s._A s._b s._x
  { s with _A := r.1, _x := r.2, Splines := s.Splines.map (accumulateSpline r.2) }

/-! ## What one solve leaves -/

theorem calculate_congr (sp : CubicSpline K) {d d' : ℕ → K}
    (h : ∀ j < 2 * sp.size, d j = d' j) (x : K) : sp.calculate d x = sp.calculate d' x := by
  simp only [CubicSpline.calculate]
  congr 1
  exact List.map_congr_left fun p hp => by rw [h p.1 (sp.basis_lt x p hp)]

theorem accumulateOutput_fst (sp : SplineInfo K) (f : K → K) (m : ℕ)
    (acc : K × UVector K × UVector K) :
    (accumulateOutput sp f (List.range m) acc).1 = acc.1 + m * sp.del_x_out := by
  induction m with
  | zero => simp [accumulateOutput]
  | succ m ih =>
    simp only [accumulateOutput, List.range_succ, List.foldl_append, List.foldl_cons,
      List.foldl_nil] at ih ⊢
    rw [ih]
    push_cast
    ring

/-- After the output loop, output point `i` holds its old sum plus the spline at
`x₀ + i * del_x_out`, and its square; points past the loop are untouched. -/
theorem accumulateOutput_entry (sp : SplineInfo K) (f : K → K) (m : ℕ) (x₀ : K)
    (sum sum2 : UVector K) (i : ℕ) :
    (accumulateOutput sp f (List.range m) (x₀, sum, sum2)).2.1.entry i =
        sum.entry i + (if i < m then f (x₀ + i * sp.del_x_out) else 0) ∧
      (accumulateOutput sp f (List.range m) (x₀, sum, sum2)).2.2.entry i =
        sum2.entry i + (if i < m then f (x₀ + i * sp.del_x_out) *
          f (x₀ + i * sp.del_x_out) else 0) := by
  induction m with
  | zero => simp [accumulateOutput]
  | succ m ih =>
    obtain ⟨ih1, ih2⟩ := ih
    have hfst := accumulateOutput_fst sp f m (x₀, sum, sum2)
    simp only [accumulateOutput, List.range_succ, List.foldl_append, List.foldl_cons,
      List.foldl_nil] at ih1 ih2 hfst ⊢
    simp only [UVector.set_entry, hfst]
    rcases Nat.lt_trichotomy i m with h | rfl | h
    · simp [h, Nat.ne_of_lt h, Nat.lt_succ_of_lt h, ih1, ih2]
    · simp [ih1, ih2]
    · simp [Nat.ne_of_gt h, show ¬ i < m + 1 by omega, show ¬ i < m by omega, ih1, ih2]

/-- **One block's statistics**: for a channel whose `n + 1` is its grid size, every output
point's `resSum` grows by the block's spline value there and `resSum2` by its square. -/
theorem accumulateSpline_resSum (x : UVector K) (sp : SplineInfo K)
    (hsp : sp.knots = sp.Spline.size) (i : ℕ) :
    (accumulateSpline x sp).resSum.entry i = sp.resSum.entry i +
        (if i < sp.res_output_coeff * sp.knots then blockValue sp x.entry i else 0) ∧
      (accumulateSpline x sp).resSum2.entry i = sp.resSum2.entry i +
        (if i < sp.res_output_coeff * sp.knots then
          blockValue sp x.entry i * blockValue sp x.entry i else 0) := by
  have hload : sp.Spline.calculate ((List.range (2 * sp.knots)).foldl
      (fun v i => v.set i (x.entry (i + sp.matr_pos))) sp.block_res).entry =
      sp.Spline.calculate (fun j => x.entry (j + sp.matr_pos)) := by
    funext y
    refine calculate_congr _ (fun j hj => ?_) y
    rw [← hsp] at hj
    simp [UVector.foldl_set_entry, hj]
  have := accumulateOutput_entry sp (sp.Spline.calculate fun j => x.entry (j + sp.matr_pos))
    (sp.res_output_coeff * sp.knots) (sp.Spline.getGridPoint 0) sp.resSum sp.resSum2 i
  simpa only [accumulateSpline, blockValue, hload] using this

@[simp] theorem accumulateSpline_matr_pos (x : UVector K) (sp : SplineInfo K) :
    (accumulateSpline x sp).matr_pos = sp.matr_pos := rfl
@[simp] theorem accumulateSpline_n (x : UVector K) (sp : SplineInfo K) :
    (accumulateSpline x sp).n = sp.n := rfl
@[simp] theorem accumulateSpline_knots (x : UVector K) (sp : SplineInfo K) :
    (accumulateSpline x sp).knots = sp.knots := rfl
@[simp] theorem accumulateSpline_Spline (x : UVector K) (sp : SplineInfo K) :
    (accumulateSpline x sp).Spline = sp.Spline := rfl
@[simp] theorem accumulateSpline_bonded (x : UVector K) (sp : SplineInfo K) :
    (accumulateSpline x sp).bonded = sp.bonded := rfl
@[simp] theorem accumulateSpline_res_output_coeff (x : UVector K) (sp : SplineInfo K) :
    (accumulateSpline x sp).res_output_coeff = sp.res_output_coeff := rfl
@[simp] theorem accumulateSpline_del_x_out (x : UVector K) (sp : SplineInfo K) :
    (accumulateSpline x sp).del_x_out = sp.del_x_out := rfl
@[simp] theorem accumulateSpline_result (x : UVector K) (sp : SplineInfo K) :
    (accumulateSpline x sp).result = sp.result := rfl
@[simp] theorem accumulateSpline_block_res_size (x : UVector K) (sp : SplineInfo K) :
    (accumulateSpline x sp).block_res.size = sp.block_res.size := by
  simp [accumulateSpline]

@[simp] theorem blockValue_accumulateSpline (x : UVector K) (sp : SplineInfo K) :
    blockValue (accumulateSpline x sp) = blockValue sp := rfl

/-- A channel after the statistics of the blocks whose solutions are `xs`, in order. -/
def accumulateBlocks (sp : SplineInfo K) (xs : List (UVector K)) : SplineInfo K :=
  xs.foldl (fun sp x => accumulateSpline x sp) sp

@[simp] theorem accumulateBlocks_nil (sp : SplineInfo K) : accumulateBlocks sp [] = sp := rfl

@[simp] theorem accumulateBlocks_cons (sp : SplineInfo K) (x : UVector K) (xs : List (UVector K)) :
    accumulateBlocks sp (x :: xs) = accumulateBlocks (accumulateSpline x sp) xs := rfl

@[simp] theorem accumulateBlocks_knots (sp : SplineInfo K) (xs : List (UVector K)) :
    (accumulateBlocks sp xs).knots = sp.knots := by
  induction xs generalizing sp <;> simp_all
@[simp] theorem accumulateBlocks_res_output_coeff (sp : SplineInfo K) (xs : List (UVector K)) :
    (accumulateBlocks sp xs).res_output_coeff = sp.res_output_coeff := by
  induction xs generalizing sp <;> simp_all
@[simp] theorem blockValue_accumulateBlocks (sp : SplineInfo K) (xs : List (UVector K)) :
    blockValue (accumulateBlocks sp xs) = blockValue sp := by
  induction xs generalizing sp <;> simp_all

/-- **The statistics of several blocks**: at every output point, `resSum` grows by the sum of
the blocks' spline values and `resSum2` by the sum of their squares. -/
theorem accumulateBlocks_resSum (sp : SplineInfo K) (hsp : sp.knots = sp.Spline.size)
    (xs : List (UVector K)) {i : ℕ} (hi : i < sp.res_output_coeff * sp.knots) :
    (accumulateBlocks sp xs).resSum.entry i =
        sp.resSum.entry i + (xs.map fun x => blockValue sp x.entry i).sum ∧
      (accumulateBlocks sp xs).resSum2.entry i = sp.resSum2.entry i +
        (xs.map fun x => blockValue sp x.entry i * blockValue sp x.entry i).sum := by
  induction xs generalizing sp with
  | nil => simp
  | cons x xs ih =>
    obtain ⟨h1, h2⟩ := ih (accumulateSpline x sp) hsp (by simpa using hi)
    obtain ⟨h1', h2'⟩ := accumulateSpline_resSum x sp hsp i
    simp only [accumulateBlocks_cons, h1, h2, h1', h2', if_pos hi, blockValue_accumulateSpline,
      List.map_cons, List.sum_cons, add_assoc, and_self]

/-! ## What one solve keeps -/

section Keep

variable (lib : Numerics K) (s : CGForceMatching K)

@[simp] theorem fmatchAccumulateData_A_size1 :
    (fmatchAccumulateData lib s)._A.size1 = s._A.size1 := by
  by_cases h : s.ConstrLeastSQ <;> simp [fmatchAccumulateData, h, constrainedSolve, constrAQ,
    simpleSolve]

theorem fmatchAccumulateData_A_size2 (hA : s._A.size2 = s.col_cntr) :
    (fmatchAccumulateData lib s)._A.size2 = s.col_cntr := by
  by_cases h : s.ConstrLeastSQ <;> simp [fmatchAccumulateData, h, constrainedSolve, constrAQ,
    simpleSolve, hA]

theorem fmatchAccumulateData_x_size (hx : s._x.size = s.col_cntr) :
    (fmatchAccumulateData lib s)._x.size = s.col_cntr := by
  by_cases h : s.ConstrLeastSQ <;> simp [fmatchAccumulateData, h, constrainedSolve,
    simpleSolve, hx]

@[simp] theorem fmatchAccumulateData_Splines : (fmatchAccumulateData lib s).Splines =
    s.Splines.map (accumulateSpline (fmatchAccumulateData lib s)._x) := rfl

end Keep

end Votca
