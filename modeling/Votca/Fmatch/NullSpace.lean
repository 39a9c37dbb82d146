import Votca.Fmatch.Solve

/-!
# The constrained solve is the null-space method

With `B_constrᵀ = Q R` (`Q` orthogonal, `R` upper triangular, `col_cntr = 2 line_cntr`), the
constrained branch of `FmatchAccumulateData` sets `_x = Q [0; x_free]`. Then
`B_constr _x = Rᵀ Qᵀ Q [0; x_free] = Rᵀ [0; x_free] = 0`, since the rows of `R` below
`line_cntr` vanish: the constraints hold exactly, whatever `QR_lssolve` returned. When
`B_constr` has full row rank, `Qᵀ x` of every feasible `x` vanishes on its first half too, so
`A x = A2 (Qᵀ x)_bottom`, and a least-squares `x_free` for `A2` makes `_x` the least-squares
solution among all feasible coefficient vectors.

The proofs move between the engine's ublas storage (sums over `range`) and Mathlib matrices
over `Fin` only to use `(Q R)ᵀ = Rᵀ Qᵀ` and the invertibility of the top block of `R`.
-/

namespace Votca

open Finset Matrix

variable {K : Type*}

section Field

variable [Field K]

/-- `‖M v - b‖²` over the rows of `M`: what `gsl_linalg_QR_lssolve` minimises. -/
def residual (M : UMatrix K) (b : UVector K) (v : ℕ → K) : K :=
  ∑ i ∈ range M.size1, (M.mulVec v i - b.entry i) ^ 2

/-- The rows of `B`, read on its first `n` columns, are linearly independent. -/
def FullRowRank (B : UMatrix K) (m n : ℕ) : Prop :=
  LinearIndependent K fun j : Fin m => fun i : Fin n => B.entry j i

/-- What `gsl_linalg_QR_decomp` promises about its factorisation of `B_constrᵀ`: every
`tau_k` is `0` or `2 / ‖v_k‖²`, and `B_constrᵀ = H_1 ⋯ H_m R` with `R` upper triangular. -/
def HouseholderQR (lib : Numerics K) (B_constr : UMatrix K) (m n : ℕ) : Prop :=
  (∀ k < m, (constrFactor lib B_constr m n).2 k = 0 ∨
    (constrFactor lib B_constr m n).2 k =
      2 / (householderVector (constrFactor lib B_constr m n).1 n (k + 1) ⬝ᵥ
        householderVector (constrFactor lib B_constr m n).1 n (k + 1))) ∧
  ∃ R : Matrix (Fin n) (Fin m) K, (∀ (i : Fin n) (j : Fin m), (j : ℕ) < i → R i j = 0) ∧
    Matrix.of (fun (i : Fin n) (j : Fin m) => B_constr.entry j i) =
      ((List.range m).map fun k =>
        householder (constrFactor lib B_constr m n).1 (constrFactor lib B_constr m n).2 n
          (k + 1)).prod * R

/-! ## Products of ublas storage -/

/-- `prod(M, prec_prod(Q, y)) = prod(prec_prod(M, Q), y)`. -/
theorem mulVec_constrX {n : ℕ} (M : UMatrix K) (hM : M.size2 = n)
    (Q : Matrix (Fin n) (Fin n) K) (y : ℕ → K) (i : ℕ) :
    M.mulVec (constrX Q y) i = (constrAQ M Q).mulVec y i := by
  simp only [UMatrix.mulVec, constrX, constrAQ, hM, mul_sum, sum_mul]
  rw [sum_comm]
  exact sum_congr rfl fun _ _ => sum_congr rfl fun _ _ => (mul_assoc _ _ _).symm

/-- Reading ublas storage on `Fin` indices: a sum over `range n` is a sum over `Fin n`. -/
theorem constrAQ_entry {m n : ℕ} (B : UMatrix K) (Q : Matrix (Fin n) (Fin n) K) (j : Fin m)
    (k : Fin n) :
    (constrAQ B Q).entry j k = ((Matrix.of fun (j : Fin m) (l : Fin n) => B.entry j l) * Q) j k := by
  simp [constrAQ, Matrix.mul_apply, Finset.sum_range]

/-- With `Bᵀ = Q R` and `Qᵀ Q = 1`, `B Q = Rᵀ`. -/
theorem constrAQ_entry_of_qr {m n : ℕ} {B : UMatrix K} {Q : Matrix (Fin n) (Fin n) K}
    {R : Matrix (Fin n) (Fin m) K} (hQ : Qᵀ * Q = 1)
    (hBQR : Matrix.of (fun (i : Fin n) (j : Fin m) => B.entry j i) = Q * R) (j : Fin m)
    (k : Fin n) : (constrAQ B Q).entry j k = R k j := by
  have hBm : (Matrix.of fun (j : Fin m) (l : Fin n) => B.entry j l) = Rᵀ * Qᵀ := by
    rw [← transpose_mul, ← hBQR]
    rfl
  rw [constrAQ_entry, hBm, Matrix.mul_assoc, hQ, Matrix.mul_one, transpose_apply]

/-! ## The constraints hold exactly -/

/-- The factor the constrained branch rebuilds is the product of GSL's reflectors, and it is
orthogonal. -/
theorem constrQ_of_householderQR {lib : Numerics K} {B_constr : UMatrix K} {m n : ℕ}
    (hqr : HouseholderQR lib B_constr m n) :
    (constrQ lib B_constr m n)ᵀ * constrQ lib B_constr m n = 1 ∧
      ∃ R : Matrix (Fin n) (Fin m) K, (∀ (i : Fin n) (j : Fin m), (j : ℕ) < i → R i j = 0) ∧
        Matrix.of (fun (i : Fin n) (j : Fin m) => B_constr.entry j i) =
          constrQ lib B_constr m n * R := by
  obtain ⟨htau, R, hR, hBQR⟩ := hqr
  refine ⟨reconstructQ_orthogonal _ _ _ _ htau, R, hR, ?_⟩
  rw [hBQR, constrQ, reconstructQ_eq]

/-- `B Q [0; x_free] = Rᵀ [0; x_free] = 0`: the upper half of `[0; x_free]` is zero and the
rows of `R` below `m` vanish in the columns `j < m`. -/
theorem mulVec_constrX_eq_zero {lib : Numerics K} {B_constr : UMatrix K} {m : ℕ}
    (hqr : HouseholderQR lib B_constr m (m + m)) (hB : B_constr.size2 = m + m)
    (xfree : ℕ → K) {j : ℕ} (hj : j < m) :
    B_constr.mulVec (constrX (constrQ lib B_constr m (m + m)) (constrY (m + m) xfree)) j = 0 := by
  obtain ⟨hQ, R, hR, hBQR⟩ := constrQ_of_householderQR hqr
  rw [mulVec_constrX B_constr hB]
  refine sum_eq_zero fun k hk => ?_
  have hk : k < m + m := by simpa [constrAQ] using hk
  rw [show (constrAQ B_constr _).entry j k = R ⟨k, hk⟩ ⟨j, hj⟩ from
    constrAQ_entry_of_qr hQ hBQR ⟨j, hj⟩ ⟨k, hk⟩]
  by_cases hkm : k < m
  · rw [show constrY (m + m) xfree k = 0 by simp [constrY, show k < (m + m) / 2 by omega],
      mul_zero]
  · rw [hR _ _ (show j < k by omega), zero_mul]

/-! ## Feasible vectors under full row rank -/

theorem constrX_eq_mulVec {n : ℕ} (Q : Matrix (Fin n) (Fin n) K) (y : ℕ → K) (l : Fin n) :
    constrX Q y l = (Q *ᵥ fun k : Fin n => y k) l := by
  simp [constrX, Finset.sum_range, Matrix.mulVec, dotProduct]

/-- With `Q Qᵀ = 1`, back-projecting `Qᵀ x` returns `x` on the first `n` entries. -/
theorem constrX_transpose {n : ℕ} {Q : Matrix (Fin n) (Fin n) K} (hQ : Q * Qᵀ = 1)
    (x : ℕ → K) (l : Fin n) :
    constrX Q (fun k => ∑ j ∈ range n, ofMatrix Q j k * x j) l = x l := by
  have hy : (fun k : Fin n => ∑ j ∈ range n, ofMatrix Q j k * x j) =
      Qᵀ *ᵥ fun j : Fin n => x j := by
    ext k
    simp [Finset.sum_range, Matrix.mulVec, dotProduct]
  rw [constrX_eq_mulVec, hy, mulVec_mulVec, hQ, one_mulVec]

/-- **Full row rank pins the constrained directions**: if `Rᵀ y = 0`, where `Bᵀ = Q R` has full
row rank and `R` is upper triangular, then the first `m` entries of `y` vanish. -/
theorem top_eq_zero_of_fullRowRank {m : ℕ} {B : UMatrix K}
    {Q : Matrix (Fin (m + m)) (Fin (m + m)) K} {R : Matrix (Fin (m + m)) (Fin m) K}
    (hrank : FullRowRank B m (m + m))
    (hR : ∀ (i : Fin (m + m)) (j : Fin m), (j : ℕ) < i → R i j = 0)
    (hBQR : Matrix.of (fun (i : Fin (m + m)) (j : Fin m) => B.entry j i) = Q * R)
    {y : Fin (m + m) → K} (hy : ∀ j : Fin m, ∑ k, R k j * y k = 0) (k : Fin m) :
    y (Fin.castAdd m k) = 0 := by
  set R1 : Matrix (Fin m) (Fin m) K := Matrix.of fun i j => R (Fin.castAdd m i) j
  have hlow : ∀ i j : Fin m, R (i.addNat m) j = 0 := fun i j => hR _ _ (by simp; omega)
  have hinj : Function.Injective R1.mulVec := by
    intro a b hab
    have hz : R1 *ᵥ (a - b) = 0 := by rw [mulVec_sub, hab, sub_self]
    have hRw : R *ᵥ (a - b) = 0 := by
      funext i
      refine Fin.addCases (fun i => ?_) (fun i => ?_) i
      · exact congrFun hz i
      · simp [mulVec, dotProduct, hlow]
    have hBm : (Matrix.of fun (j : Fin m) (i : Fin (m + m)) => B.entry j i) = (Q * R)ᵀ := by
      rw [← hBQR]
      rfl
    have hBw : (a - b) ᵥ* (Matrix.of fun (j : Fin m) (i : Fin (m + m)) => B.entry j i) =
        0 ᵥ* (Matrix.of fun (j : Fin m) (i : Fin (m + m)) => B.entry j i) := by
      rw [hBm, vecMul_transpose, ← mulVec_mulVec, hRw, mulVec_zero, zero_vecMul]
    exact sub_eq_zero.1 ((vecMul_injective_iff.2 hrank) hBw)
  have hunit : IsUnit R1ᵀ := (isUnit_transpose R1).2 (mulVec_injective_iff_isUnit.1 hinj)
  have htop : R1ᵀ *ᵥ (fun i => y (Fin.castAdd m i)) = R1ᵀ *ᵥ 0 := by
    funext j
    have := hy j
    rw [Fin.sum_univ_add] at this
    simpa [mulVec, dotProduct, R1, hlow] using this
  exact congrFun (mulVec_injective_iff_isUnit.2 hunit htop) k

/-- `prec_prod(_A, Q)` applied to a vector whose upper half vanishes is `A2` applied to its
lower half. -/
theorem constrAQ_mulVec_split {m : ℕ} (A : UMatrix K) (Q : Matrix (Fin (m + m)) (Fin (m + m)) K)
    {y : ℕ → K} (hy : ∀ k < m, y k = 0) (i : ℕ) :
    (constrAQ A Q).mulVec y i = (constrA2 (constrAQ A Q) (m + m)).mulVec (fun k => y (m + k)) i := by
  have h2 : (m + m) / 2 = m := by omega
  simp only [UMatrix.mulVec, constrA2, h2]
  rw [show (constrAQ A Q).size2 = m + m from rfl, sum_range_add,
    sum_eq_zero fun k hk => by rw [hy k (mem_range.1 hk), mul_zero], zero_add]
  refine sum_congr rfl fun k hk => ?_
  rw [if_pos (by simp at hk; omega), h2, Nat.add_comm k m]

/-- **The computed `_x` acts as `x_free`**: `_A Q [0; x_free] = A2 x_free`. -/
theorem mulVec_constrX_constrY {m : ℕ} (A : UMatrix K) (hA : A.size2 = m + m)
    (Q : Matrix (Fin (m + m)) (Fin (m + m)) K) (v : ℕ → K) (i : ℕ) :
    A.mulVec (constrX Q (constrY (m + m) v)) i = (constrA2 (constrAQ A Q) (m + m)).mulVec v i := by
  rw [mulVec_constrX A hA, constrAQ_mulVec_split A Q fun k hk => by
    simp [constrY, show k < (m + m) / 2 by omega]]
  refine UMatrix.mulVec_congr _ (fun k hk => ?_) i
  have hk : k < m := by simp [constrA2] at hk; omega
  simp [constrY, show ¬ m + k < (m + m) / 2 by omega, show m + k < m + m by omega,
    show m + k - (m + m) / 2 = k by omega]

/-- **Feasible vectors factor through `A2`**: with `Bᵀ = Q R`, `Qᵀ Q = 1` and `B` of full row
rank, every `x` with `B x = 0` has `Qᵀ x = [0; y]`, so `A x = A2 y`. -/
theorem mulVec_of_feasible {m : ℕ} {A B : UMatrix K} (hA : A.size2 = m + m)
    (hB : B.size2 = m + m) {Q : Matrix (Fin (m + m)) (Fin (m + m)) K}
    {R : Matrix (Fin (m + m)) (Fin m) K} (hQ : Qᵀ * Q = 1)
    (hR : ∀ (i : Fin (m + m)) (j : Fin m), (j : ℕ) < i → R i j = 0)
    (hBQR : Matrix.of (fun (i : Fin (m + m)) (j : Fin m) => B.entry j i) = Q * R)
    (hrank : FullRowRank B m (m + m)) {x : ℕ → K} (hx : ∀ j < m, B.mulVec x j = 0) (i : ℕ) :
    A.mulVec x i = (constrA2 (constrAQ A Q) (m + m)).mulVec
      (fun k => ∑ j ∈ range (m + m), ofMatrix Q j (m + k) * x j) i := by
  set y : ℕ → K := fun k => ∑ j ∈ range (m + m), ofMatrix Q j k * x j
  have hback : ∀ j < m + m, x j = constrX Q y j :=
    fun j hj => (constrX_transpose (Matrix.mul_eq_one_comm.1 hQ) x ⟨j, hj⟩).symm
  have hRy : ∀ j : Fin m, ∑ k : Fin (m + m), R k j * y k = 0 := by
    intro j
    have h0 := hx j j.isLt
    rw [UMatrix.mulVec_congr B fun l hl => hback l (hB ▸ hl), mulVec_constrX B hB] at h0
    rw [← h0]
    simp only [UMatrix.mulVec, show (constrAQ B Q).size2 = m + m from rfl, Finset.sum_range]
    exact sum_congr rfl fun k _ => by rw [constrAQ_entry_of_qr hQ hBQR j k]
  have htop : ∀ k < m, y k = 0 := fun k hk =>
    top_eq_zero_of_fullRowRank (y := fun k => y k) hrank hR hBQR hRy ⟨k, hk⟩
  rw [UMatrix.mulVec_congr A fun l hl => hback l (hA ▸ hl), mulVec_constrX A hA,
    constrAQ_mulVec_split A Q htop]

/-- The reduced system's residual at `v` is the full system's at `Q [0; v]`. -/
theorem residual_constrA2 {m : ℕ} (A : UMatrix K) (hA : A.size2 = m + m)
    (Q : Matrix (Fin (m + m)) (Fin (m + m)) K) (b : UVector K) (v : ℕ → K) :
    residual (constrA2 (constrAQ A Q) (m + m)) b v =
      residual A b (constrX Q (constrY (m + m) v)) :=
  sum_congr rfl fun i _ => by rw [mulVec_constrX_constrY A hA]

/-- **The constrained solve meets the constraints exactly**, whatever `QR_lssolve` returned. -/
theorem constrainedSolve_feasible {lib : Numerics K} {A B_constr : UMatrix K} {b x : UVector K}
    {m : ℕ} (hqr : HouseholderQR lib B_constr m (m + m)) (hB : B_constr.size2 = m + m)
    (hx : x.size = m + m) {j : ℕ} (hj : j < m) :
    B_constr.mulVec (constrainedSolve lib A b x B_constr m (m + m)).2.entry j = 0 := by
  simp only [constrainedSolve]
  rw [hx]
  exact mulVec_constrX_eq_zero hqr hB _ hj

end Field

/-! ## The least-squares solution among feasible vectors -/

section Ordered

variable [LinearOrderedField K]

/-- `v` minimises `‖M v - b‖`. -/
def IsLeastSquares (M : UMatrix K) (b : UVector K) (v : ℕ → K) : Prop :=
  ∀ z, residual M b v ≤ residual M b z

/-- **The constrained solve is least squares among feasible vectors**: with `B_constr` of full
row rank and a least-squares `x_free` for `A2`, no `x'` with `B_constr x' = 0` has a smaller
residual than `_x`. -/
theorem constrainedSolve_le_of_feasible {lib : Numerics K} {A B_constr : UMatrix K}
    {b x : UVector K} {m : ℕ} (hA : A.size2 = m + m) (hx : x.size = m + m)
    (hB : B_constr.size2 = m + m) (hqr : HouseholderQR lib B_constr m (m + m))
    (hrank : FullRowRank B_constr m (m + m))
    (hmin : IsLeastSquares (constrA2 (constrAQ A (constrQ lib B_constr m (m + m))) (m + m)) b
      (constrXfree lib (constrA2 (constrAQ A (constrQ lib B_constr m (m + m))) (m + m)) b.entry))
    {x' : ℕ → K} (hx' : ∀ j < m, B_constr.mulVec x' j = 0) :
    residual A b (constrainedSolve lib A b x B_constr m (m + m)).2.entry ≤ residual A b x' := by
  obtain ⟨hQ, R, hR, hBQR⟩ := constrQ_of_householderQR hqr
  set Q := constrQ lib B_constr m (m + m)
  set A2 := constrA2 (constrAQ A Q) (m + m)
  calc residual A b (constrainedSolve lib A b x B_constr m (m + m)).2.entry
      = residual A2 b (constrXfree lib A2 b.entry) := by
        simp only [constrainedSolve, hx]
        exact (residual_constrA2 A hA Q b _).symm
    _ ≤ residual A2 b fun k => ∑ j ∈ range (m + m), ofMatrix Q j (m + k) * x' j := hmin _
    _ = residual A b x' := by
        simp only [residual]
        exact sum_congr rfl fun i _ => by rw [mulVec_of_feasible hA hB hQ hR hBQR hrank hx' i]

/-- **The constrained solve is the null-space method.** In constrained mode, for every design
matrix `A`, right-hand side `b` and constraint matrix `B_constr` with `col_cntr = 2 line_cntr`,
given what `gsl_linalg_QR_decomp` promises about `B_constrᵀ`, the `_x` the branch computes
satisfies `B_constr _x = 0` exactly, whatever `QR_lssolve` returned; and when `B_constr` has
full row rank and `x_free` solves the least-squares problem of `A2`, `_x` minimises
`‖A x - b‖` over every `x` with `B_constr x = 0`. -/
theorem constrainedSolve_null_space (lib : Numerics K) (A : UMatrix K) (b x : UVector K)
    (B_constr : UMatrix K) (line_cntr col_cntr : ℕ) (hcol : col_cntr = 2 * line_cntr)
    (hA : A.size2 = col_cntr) (hx : x.size = col_cntr) (hB : B_constr.size2 = col_cntr)
    (hqr : HouseholderQR lib B_constr line_cntr col_cntr) :
    (∀ j < line_cntr,
      B_constr.mulVec (constrainedSolve lib A b x B_constr line_cntr col_cntr).2.entry j = 0) ∧
    (FullRowRank B_constr line_cntr col_cntr →
      IsLeastSquares (constrA2 (constrAQ A (constrQ lib B_constr line_cntr col_cntr)) col_cntr) b
        (constrXfree lib (constrA2 (constrAQ A (constrQ lib B_constr line_cntr col_cntr))
          col_cntr) b.entry) →
      ∀ x' : ℕ → K, (∀ j < line_cntr, B_constr.mulVec x' j = 0) →
        residual A b (constrainedSolve lib A b x B_constr line_cntr col_cntr).2.entry ≤
          residual A b x') := by
  obtain rfl : col_cntr = line_cntr + line_cntr := by omega
  exact ⟨fun j hj => constrainedSolve_feasible hqr hB hx hj,
    fun hrank hmin x' hx' => constrainedSolve_le_of_feasible hA hx hB hqr hrank hmin hx'⟩

/-- `idNumerics` returns every `tau` zero, so the `Q` it rebuilds is the identity. -/
theorem constrQ_idNumerics (B : UMatrix ℚ) (m n : ℕ) : constrQ idNumerics B m n = 1 := by
  simp [constrQ, reconstructQ_eq, householder, constrFactor, idNumerics]

/-- The single constraint `c₀ = 0` on two coefficients. -/
def unitConstraint : UMatrix ℚ := ⟨1, 2, fun i j => if i = 0 ∧ j = 0 then 1 else 0⟩

/-- `idNumerics` factors `unitConstraintᵀ = e₀` exactly. -/
theorem unitConstraint_qr : HouseholderQR idNumerics unitConstraint 1 2 := by
  refine ⟨fun k _ => .inl rfl, Matrix.of fun i j => unitConstraint.entry j i, fun i j h => ?_, ?_⟩
  · have : (i : ℕ) ≠ 0 := by omega
    simp [unitConstraint, this]
  · simp [householder, constrFactor, idNumerics]

/-- GSL's factor of `[0 1]ᵀ` as one reflector, packed as `QR_decomp` leaves it: `R₀₀ = -1` on
the diagonal, `v = (1, 1)` below it, `tau = 1 = 2 / ‖v‖²`; `QR_lssolve` returns `b`. -/
def swapNumerics : Numerics ℚ :=
  ⟨id, fun _ _ _ => (fun i _ => if i = 0 then -1 else 1, fun _ => 1), fun _ _ _ _ b => b⟩

/-- The single constraint `c₁ = 0` on two coefficients. -/
def swapConstraint : UMatrix ℚ := ⟨1, 2, fun i j => if i = 0 ∧ j = 1 then 1 else 0⟩

/-- `swapNumerics` factors `swapConstraintᵀ = e₁` as `H₁ R` with `R = (-1, 0)ᵀ`: the reflector
`H₁ = I - v vᵀ` swaps the two axes and negates them. -/
theorem swapConstraint_qr : HouseholderQR swapNumerics swapConstraint 1 2 := by
  refine ⟨fun k hk => .inr ?_, Matrix.of fun i _ => if (i : ℕ) = 0 then -1 else 0,
    fun i j h => ?_, ?_⟩
  · obtain rfl : k = 0 := by omega
    simp [constrFactor, swapNumerics, householderVector, dotProduct, Fin.sum_univ_two]
    norm_num
  · have : (i : ℕ) ≠ 0 := by omega
    simp [this]
  · rw [show List.range 1 = [0] from rfl]
    ext i j
    fin_cases i <;> fin_cases j <;>
      simp [householder, constrFactor, swapNumerics, householderVector, swapConstraint,
        Matrix.mul_apply, Fin.sum_univ_two, vecMulVec]

/-- The null-space method on the constraint `c₁ = 0` through the reflector of
`swapConstraint_qr`, with `A = [1 1]` and `b = 1`. -/
theorem constrainedSolve_null_space_swap :
    (∀ j < 1, swapConstraint.mulVec
      (constrainedSolve swapNumerics ⟨1, 2, fun _ _ => 1⟩ ⟨1, fun _ => 1⟩ (UVector.zero 2)
        swapConstraint 1 2).2.entry j = 0) ∧
    (FullRowRank swapConstraint 1 2 →
      IsLeastSquares (constrA2 (constrAQ ⟨1, 2, fun _ _ => 1⟩
          (constrQ swapNumerics swapConstraint 1 2)) 2) ⟨1, fun _ => 1⟩
        (constrXfree swapNumerics (constrA2 (constrAQ ⟨1, 2, fun _ _ => 1⟩
          (constrQ swapNumerics swapConstraint 1 2)) 2) fun _ => 1) →
      ∀ x' : ℕ → ℚ, (∀ j < 1, swapConstraint.mulVec x' j = 0) →
        residual ⟨1, 2, fun _ _ => 1⟩ ⟨1, fun _ => 1⟩
            (constrainedSolve swapNumerics ⟨1, 2, fun _ _ => 1⟩ ⟨1, fun _ => 1⟩ (UVector.zero 2)
              swapConstraint 1 2).2.entry ≤
          residual ⟨1, 2, fun _ _ => 1⟩ ⟨1, fun _ => 1⟩ x') :=
  constrainedSolve_null_space swapNumerics _ _ _ swapConstraint 1 2 rfl rfl rfl rfl
    swapConstraint_qr

end Ordered

end Votca
