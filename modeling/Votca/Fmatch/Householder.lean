import Mathlib

/-!
# Rebuilding `Q` from GSL's Householder reflectors

`gsl_linalg_QR_decomp` leaves the orthogonal factor of `Bᵀ = Q R` packed: reflector `k`
(`1 ≤ k ≤ m`) is `H_k = I - tau_(k-1) v_k v_kᵀ`, where `v_k` is `0` above row `k - 1`, `1` at
row `k - 1`, and column `k - 1` of the packed matrix below it, and `Q = H_1 H_2 ⋯ H_m`.
`FmatchAccumulateData` rebuilds `Q` with one vector `v` reused across iterations: for `k` from
`m` down to `1` it rewrites `v`, multiplies `Q` on the right by `I - tau_(k-1) v vᵀ`, and
transposes at the end.

The results: every iteration rewrites all of `v`, so nothing of iteration `k + 1` survives
(`rebuildV_eq`); the loop yields `H_m ⋯ H_1`, whose transpose is `H_1 ⋯ H_m` because every
reflector is symmetric (`reconstructQ_eq`); and when every `tau_k` is `0` or `2 / ‖v_k‖²`
each reflector is an involution, so `Qᵀ Q = I` (`reconstructQ_orthogonal`).
-/

namespace Votca

open Matrix

variable {K : Type*}

/-! ## Overwriting a vector in a loop -/

/-- After a loop `for i in l: v(i) = f(i)`, an index the loop visited holds `f i`, any other
keeps its value. -/
theorem foldl_update_apply (f : ℕ → K) (l : List ℕ) (v : ℕ → K) (j : ℕ) :
    (l.foldl (fun v i => Function.update v i (f i)) v) j = if j ∈ l then f j else v j := by
  induction l generalizing v with
  | nil => simp
  | cons i l ih =>
    rw [List.foldl_cons, ih]
    by_cases hj : j ∈ l
    · simp [hj]
    · by_cases hji : j = i
      · subst hji
        simp [hj]
      · simp [hj, hji, Function.update_noteq hji]

/-- The same loop writing a constant. -/
theorem foldl_update_const (c : K) (l : List ℕ) (v : ℕ → K) (j : ℕ) :
    (l.foldl (fun v i => Function.update v i c) v) j = if j ∈ l then c else v j :=
  foldl_update_apply (fun _ => c) l v j

/-! ## The reflectors -/

variable [Field K]

/-- The three loops that rebuild `v` for reflector `k` of a `size`-vector: zeros below
`k - 1`, `1` at `k - 1`, then column `k - 1` of the packed factor `B_t` from row `k` on. -/
def rebuildV (B_t : ℕ → ℕ → K) (size k : ℕ) (v : ℕ → K) : ℕ → K :=
  let v := (List.range (k - 1)).foldl (fun v icout => Function.update v icout 0) v
  let v := Function.update v (k - 1) 1
  (List.range' k (size - k)).foldl
    (fun v icout => Function.update v icout (B_t icout (k - 1))) v

/-- The Householder vector `v_k = e_(k-1) + Σ_{r ≥ k} B_t(r, k-1) e_r` of GSL's packed
factor. -/
def householderVector (B_t : ℕ → ℕ → K) (n k : ℕ) : Fin n → K := fun i =>
  if (i : ℕ) < k - 1 then 0 else if (i : ℕ) = k - 1 then 1 else B_t i (k - 1)

/-- The reflector `H_k = I - tau_(k-1) v_k v_kᵀ`. -/
def householder (B_t : ℕ → ℕ → K) (tau : ℕ → K) (n k : ℕ) : Matrix (Fin n) (Fin n) K :=
  1 - tau (k - 1) • vecMulVec (householderVector B_t n k) (householderVector B_t n k)

/-- **No entry left over**: for `k ≥ 1` the rebuilt `v` is `v_k` on all `size` entries,
whatever `v` held before. -/
theorem rebuildV_eq (B_t : ℕ → ℕ → K) {size k : ℕ} (hk : 1 ≤ k) (v : ℕ → K) (i : Fin size) :
    rebuildV B_t size k v i = householderVector B_t size k i := by
  simp only [rebuildV, householderVector, foldl_update_apply, Function.update_apply,
    foldl_update_const, List.mem_range, List.mem_range'_1]
  have hi := i.isLt
  rcases Nat.lt_trichotomy (i : ℕ) (k - 1) with h | h | h
  · rw [if_neg (by omega), if_neg (by omega), if_pos h, if_pos h]
  · rw [if_neg (by omega), if_pos h, if_neg (by omega), if_pos h]
  · rw [if_pos (by omega), if_neg (by omega), if_neg (by omega)]

/-- The loop of `FmatchAccumulateData`: for `k` from `m` down to `1`, rebuild `v` and set
`Q = Q * (I - tau_(k-1) v vᵀ)`, from `Q = I` and a cleared `v`; then `Q = trans(Q)`. -/
def reconstructQ (n m : ℕ) (B_t : ℕ → ℕ → K) (tau : ℕ → K) : Matrix (Fin n) (Fin n) K :=
  let step := fun (acc : (ℕ → K) × Matrix (Fin n) (Fin n) K) (k : ℕ) =>
    let v := rebuildV B_t n k acc.1
    (v, acc.2 * (1 - tau (k - 1) • vecMulVec (fun i : Fin n => v i) (fun i : Fin n => v i)))
  (((List.range m).reverse.map (· + 1)).foldl step
    ((fun _ => 0 : ℕ → K), (1 : Matrix (Fin n) (Fin n) K))).2ᵀ

theorem householder_transpose (B_t : ℕ → ℕ → K) (tau : ℕ → K) (n k : ℕ) :
    (householder B_t tau n k)ᵀ = householder B_t tau n k := by
  ext i j
  simp [householder, vecMulVec_apply, one_apply, eq_comm, mul_comm]

/-- `(v vᵀ)(v vᵀ) = (v ⬝ v) v vᵀ`. -/
theorem vecMulVec_self_mul_self {n : ℕ} (v : Fin n → K) :
    vecMulVec v v * vecMulVec v v = (v ⬝ᵥ v) • vecMulVec v v := by
  ext i j
  simp only [mul_apply, vecMulVec_apply, smul_apply, dotProduct, smul_eq_mul, Finset.sum_mul]
  exact Finset.sum_congr rfl fun k _ => by ring

/-- A reflector with `tau = 0` or `tau = 2 / (v ⬝ v)` is an involution. -/
theorem householder_mul_self (B_t : ℕ → ℕ → K) (tau : ℕ → K) (n k : ℕ)
    (htau : tau (k - 1) = 0 ∨
      tau (k - 1) = 2 / (householderVector B_t n k ⬝ᵥ householderVector B_t n k)) :
    householder B_t tau n k * householder B_t tau n k = 1 := by
  set v := householderVector B_t n k
  set t := tau (k - 1)
  have hcoef : t * t * (v ⬝ᵥ v) - 2 * t = 0 := by
    rcases htau with h | h
    · simp [h]
    · by_cases hv : v ⬝ᵥ v = 0
      · simp [h, hv]
      · rw [h]
        field_simp
        ring
  have hexp : householder B_t tau n k * householder B_t tau n k =
      1 + (t * t * (v ⬝ᵥ v) - 2 * t) • vecMulVec v v := by
    simp only [householder, sub_mul, mul_sub, Matrix.one_mul, Matrix.mul_one, smul_mul_smul_comm,
      vecMulVec_self_mul_self, smul_smul, sub_smul]
    rw [two_mul, add_smul]
    abel
  rw [hexp, hcoef, zero_smul, add_zero]

/-- The loop, run over any list of indices `k ≥ 1`, multiplies `Q` by their reflectors in
order. -/
theorem reconstructQ_foldl (n : ℕ) (B_t : ℕ → ℕ → K) (tau : ℕ → K) (ks : List ℕ)
    (hks : ∀ k ∈ ks, 1 ≤ k) (v : ℕ → K) (Q : Matrix (Fin n) (Fin n) K) :
    (ks.foldl (fun (acc : (ℕ → K) × Matrix (Fin n) (Fin n) K) (k : ℕ) =>
        let v := rebuildV B_t n k acc.1
        (v, acc.2 * (1 - tau (k - 1) • vecMulVec (fun i : Fin n => v i) (fun i : Fin n => v i))))
      (v, Q)).2 = Q * (ks.map (householder B_t tau n)).prod := by
  induction ks generalizing v Q with
  | nil => simp
  | cons k ks ih =>
    simp only [List.mem_cons, forall_eq_or_imp] at hks
    have hv : (fun i : Fin n => rebuildV B_t n k v i) = householderVector B_t n k :=
      funext (rebuildV_eq B_t hks.1 v)
    rw [List.foldl_cons, ih hks.2, hv, List.map_cons, List.prod_cons, Matrix.mul_assoc]
    rfl

/-- **The loop rebuilds GSL's factor**: `reconstructQ` is `H_1 H_2 ⋯ H_m`. -/
theorem reconstructQ_eq (n m : ℕ) (B_t : ℕ → ℕ → K) (tau : ℕ → K) :
    reconstructQ n m B_t tau =
      ((List.range m).map fun k => householder B_t tau n (k + 1)).prod := by
  have hks : ∀ k ∈ (List.range m).reverse.map (· + 1), 1 ≤ k := by simp
  rw [reconstructQ, reconstructQ_foldl n B_t tau _ hks, Matrix.one_mul, transpose_list_prod]
  simp only [List.map_map, List.map_reverse, List.reverse_reverse]
  congr 1
  exact List.map_congr_left fun k _ => householder_transpose B_t tau n (k + 1)

/-- A product of symmetric involutions `P` satisfies `Pᵀ P = 1`. -/
theorem transpose_mul_self_of_involutions {n : ℕ} (l : List (Matrix (Fin n) (Fin n) K))
    (hsym : ∀ H ∈ l, Hᵀ = H) (hinv : ∀ H ∈ l, H * H = 1) : l.prodᵀ * l.prod = 1 := by
  induction l with
  | nil => simp
  | cons H l ih =>
    simp only [List.mem_cons, forall_eq_or_imp] at hsym hinv
    calc (H :: l).prodᵀ * (H :: l).prod = l.prodᵀ * (Hᵀ * H) * l.prod := by
          simp only [List.prod_cons, transpose_mul, Matrix.mul_assoc]
      _ = 1 := by rw [hsym.1, hinv.1, Matrix.mul_one, ih hsym.2 hinv.2]

/-- **The rebuilt factor is orthogonal** once every `tau_k` is `0` or `2 / ‖v_k‖²`. -/
theorem reconstructQ_orthogonal (n m : ℕ) (B_t : ℕ → ℕ → K) (tau : ℕ → K)
    (htau : ∀ k < m, tau k = 0 ∨
      tau k = 2 / (householderVector B_t n (k + 1) ⬝ᵥ householderVector B_t n (k + 1))) :
    (reconstructQ n m B_t tau)ᵀ * reconstructQ n m B_t tau = 1 := by
  rw [reconstructQ_eq]
  apply transpose_mul_self_of_involutions <;> simp only [List.mem_map, List.mem_range] <;>
    rintro _ ⟨k, hk, rfl⟩
  · exact householder_transpose B_t tau n (k + 1)
  · exact householder_mul_self B_t tau n (k + 1) (by simpa using htau k hk)

/-- **The reflector loop of `FmatchAccumulateData`**: every iteration `k ≥ 1` rebuilds `v` as
`v_k` whatever the previous iteration left in it; the loop, transposed, yields GSL's factor
`H_1 H_2 ⋯ H_m`; and when every `tau_k` is `0` or `2 / ‖v_k‖²`, that factor is orthogonal. -/
theorem reconstructQ_spec (n m : ℕ) (B_t : ℕ → ℕ → K) (tau : ℕ → K) :
    (∀ k, 1 ≤ k → ∀ (v : ℕ → K) (i : Fin n), rebuildV B_t n k v i = householderVector B_t n k i) ∧
    reconstructQ n m B_t tau =
      ((List.range m).map fun k => householder B_t tau n (k + 1)).prod ∧
    ((∀ k < m, tau k = 0 ∨
        tau k = 2 / (householderVector B_t n (k + 1) ⬝ᵥ householderVector B_t n (k + 1))) →
      (reconstructQ n m B_t tau)ᵀ * reconstructQ n m B_t tau = 1) :=
  ⟨fun _ hk v i => rebuildV_eq B_t hk v i, reconstructQ_eq n m B_t tau,
    reconstructQ_orthogonal n m B_t tau⟩

end Votca
