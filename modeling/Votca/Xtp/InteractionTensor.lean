import Mathlib

/-!
# The interaction tensors of `xtp`

`InteractionTensor<screen, maxRank>` computes, for a displacement `dr`, the tensors of rank
`0` to `maxRank ≤ 4` of the kernel `1/r`, `erfc(αr)/r` or `erf(αr)/r`, with damping factors
`l3 … l9`. The three variants `noneTensors`, `erfcTensors` and `erfTensors` differ only in the
radial factors `rR1, rR3, …, rR9` they compute first; each then writes the same formulas. The
model says this once: a variant is its radial factors (`Radial`) handed to `fill`, and the
three keep their own definitions under their names.

The tensors of a radial kernel are its derivatives, so rank `n` is invariant under every
permutation of its `n` indices (`PermInvariant3`, `PermInvariant4`). Rank 2 is symmetric
(`computeTensors_rank2_symm`). The code's rank 3 is the symmetric tensor `rank3Sym` plus
`3 l5 rR5 d_i (δ_ki - δ_kj)`: its last Kronecker term reads `δ(k, i)` where `δ(k, j)` belongs,
so rank 3 is invariant exactly when `l5 rR5 dr = 0`. Rank 4 has the same slip in `part3`
(`δ(l, i) δ(k, i)` for `δ(l, i) δ(k, j)`) and is invariant exactly when `l5 rR5 = 0`.

Proof shape: the defect is isolated once per tensor (`fill_rank3_eq`, `fill_rank4_eq`); the
symmetric parts are invariant because invariance under the transpositions of neighbouring
indices gives invariance under every permutation (`permInvariant3_of_swaps`), by
`Equiv.Perm.swap_induction_on'`; the converse directions read one transposed pair of entries.
-/

namespace Votca.Xtp

variable {K : Type*}

/-- `Screening`: the kernel is `1/r`, `erfc(αr)/r` or `erf(αr)/r`. -/
inductive Screening
  /-- `Screening::none` -/
  | none
  /-- `Screening::erfc` -/
  | erfc
  /-- `Screening::erf` -/
  | erf
  deriving DecidableEq, Repr

/-- The functions of `<cmath>` and the constant of Boost the tensors use, as arbitrary
functions. -/
structure CMath (K : Type*) where
  /-- `std::sqrt` -/
  sqrt : K → K
  /-- `std::exp` -/
  exp : K → K
  /-- `std::erf` -/
  erf : K → K
  /-- `std::erfc` -/
  erfc : K → K
  /-- `boost::math::constants::pi<double>()` -/
  pi : K

/-- The members of `InteractionTensor<screen, maxRank>`. The template parameters are
arguments of the functions. -/
structure InteractionTensor (K : Type*) where
  /-- `dr_` -/
  dr_ : Fin 3 → K
  /-- `rank0_` -/
  rank0_ : K
  /-- `rank1_` -/
  rank1_ : Fin 3 → K
  /-- `rank2_` -/
  rank2_ : Fin 3 → Fin 3 → K
  /-- `rank3_`, read as `rank3_(k, j, i)` -/
  rank3_ : Fin 3 → Fin 3 → Fin 3 → K
  /-- `rank4_`, read as `rank4_(l, k, j, i)` -/
  rank4_ : Fin 3 → Fin 3 → Fin 3 → Fin 3 → K
  /-- `l3` -/
  l3 : K
  /-- `l5` -/
  l5 : K
  /-- `l7` -/
  l7 : K
  /-- `l9` -/
  l9 : K
  /-- `a1` -/
  a1 : K
  /-- `a2` -/
  a2 : K
  /-- `a3` -/
  a3 : K
  /-- `a5` -/
  a5 : K
  /-- `a7` -/
  a7 : K

section Model

variable [Field K]

/-- `InteractionTensor(alpha)`. `rank3_` and `rank4_` are allocated without being initialised:
the model takes what they hold as inputs. -/
def InteractionTensor.new (maxRank : Fin 5) (alpha : K) (rank3 : Fin 3 → Fin 3 → Fin 3 → K)
    (rank4 : Fin 3 → Fin 3 → Fin 3 → Fin 3 → K) : InteractionTensor K :=
  let a2 := alpha * alpha
  let a3 := alpha * a2
  let a5 := if 2 < maxRank then a3 * a2 else 1
  { dr_ := 0, rank0_ := 0, rank1_ := 0, rank2_ := 0, rank3_ := rank3, rank4_ := rank4
    l3 := 1, l5 := 1, l7 := 1, l9 := 1
    a1 := alpha, a2 := a2, a3 := a3, a5 := a5, a7 := if 2 < maxRank then a5 * a2 else 1 }

/-- `setDampingCoeffs(coeffs)`. -/
def InteractionTensor.setDampingCoeffs (t : InteractionTensor K) (coeffs : Fin 4 → K) :
    InteractionTensor K :=
  { t with l3 := coeffs 0, l5 := coeffs 1, l7 := coeffs 2, l9 := coeffs 3 }

/-- `dr_.norm()`. -/
def norm (m : CMath K) (v : Fin 3 → K) : K := m.sqrt (v 0 * v 0 + v 1 * v 1 + v 2 * v 2)

/-- `(double)(i == j)`. -/
def delta (i j : Fin 3) : K := if i = j then 1 else 0

theorem delta_comm (i j : Fin 3) : (delta i j : K) = delta j i := by
  simp only [delta, eq_comm]

/-- The radial factors `rR1, rR3, rR5, rR7, rR9` of a variant. -/
@[ext]
structure Radial (K : Type*) where
  /-- `rR` or `rR1s` -/
  r1 : K
  /-- `rR3` or `rR3s` -/
  r3 : K
  /-- `rR5` or `rR5s` -/
  r5 : K
  /-- `rR7` or `rR7s` -/
  r7 : K
  /-- `rR9` or `rR9s` -/
  r9 : K

/-- What every variant writes once it has its radial factors: `rank0_ = rR1`, and each further
rank only when `maxRank` reaches it. The erfc and erf variants write the products of each
entry in another order than `noneTensors`; over a field they are the same numbers. -/
def fill (maxRank : Fin 5) (t : InteractionTensor K) (ρ : Radial K) : InteractionTensor K :=
  let dr := t.dr_
  { t with
    rank0_ := ρ.r1
    rank1_ := if 0 < maxRank then fun i => -t.l3 * ρ.r3 * dr i else t.rank1_
    rank2_ := if 1 < maxRank then
        fun i j => 3 * (dr i * dr j) * t.l5 * ρ.r5 - delta i j * t.l3 * ρ.r3
      else t.rank2_
    rank3_ := if 2 < maxRank then
        fun k j i => -15 * dr k * dr j * dr i * t.l7 * ρ.r7 +
          3 * (dr k * delta j i + dr j * delta k i + dr i * delta k i) * t.l5 * ρ.r5
      else t.rank3_
    rank4_ := if 3 < maxRank then
        fun l k j i =>
          let part1 := dr l * dr k * dr j * dr i
          let part2 := dr l * dr k * delta j i + dr l * dr j * delta k i +
            dr l * dr i * delta k j + dr k * dr j * delta l i + dr k * dr i * delta l j +
            dr j * dr i * delta l k
          let part3 := delta l k * delta j i + delta l j * delta k i + delta l i * delta k i
          105 * part1 * ρ.r9 * t.l9 - 15 * part2 * ρ.r7 * t.l7 + 3 * part3 * ρ.r5 * t.l5
      else t.rank4_ }

/-- The radial factors of `noneTensors`: `rR = 1 / R` and its odd powers. -/
def noneRadial (m : CMath K) (t : InteractionTensor K) : Radial K :=
  let R := norm m t.dr_
  let rR := 1 / R
  let rR2 := rR * rR
  let rR3 := rR * rR2
  let rR5 := rR3 * rR2
  let rR7 := rR5 * rR2
  ⟨rR, rR3, rR5, rR7, rR7 * rR2⟩

/-- The radial factors of `erfcTensors` (`kernel = erfc`, `sign = 1`) and `erfTensors`
(`kernel = erf`, `sign = -1`): each is `rR2` times the one before, plus or minus a Gaussian
term. -/
def screenedRadial (m : CMath K) (t : InteractionTensor K) (kernel : K → K) (sign : K) :
    Radial K :=
  let rSqrtPi := 1 / m.sqrt m.pi
  let R := norm m t.dr_
  let rR := 1 / R
  let rSqrtPiExp := rSqrtPi * m.exp (-t.a2 * R * R)
  let rR1s := kernel (t.a1 * R) * rR
  let rR2 := rR * rR
  let rR3s := rR2 * (rR1s + sign * (2 * t.a1 * rSqrtPiExp))
  let rR5s := rR2 * (rR3s + sign * (4 / 3 * t.a3 * rSqrtPiExp))
  let rR7s := rR2 * (rR5s + sign * (8 / (5 * 3) * t.a5 * rSqrtPiExp))
  ⟨rR1s, rR3s, rR5s, rR7s, rR2 * (rR7s + sign * (16 / (3 * 5 * 7) * t.a7 * rSqrtPiExp))⟩

/-- `noneTensors()`. -/
def noneTensors (maxRank : Fin 5) (m : CMath K) (t : InteractionTensor K) : InteractionTensor K :=
  fill maxRank t (noneRadial m t)

/-- `erfcTensors()`. -/
def erfcTensors (maxRank : Fin 5) (m : CMath K) (t : InteractionTensor K) : InteractionTensor K :=
  fill maxRank t (screenedRadial m t m.erfc 1)

/-- `erfTensors()`. -/
def erfTensors (maxRank : Fin 5) (m : CMath K) (t : InteractionTensor K) : InteractionTensor K :=
  fill maxRank t (screenedRadial m t m.erf (-1))

/-- The first lines of `computeTensors(dr)`: store `dr`, zero `rank1_` and `rank2_`, and
`rank3_`, `rank4_` when `maxRank > 2`. -/
def reset (maxRank : Fin 5) (t : InteractionTensor K) (dr : Fin 3 → K) : InteractionTensor K :=
  { t with
    dr_ := dr, rank1_ := 0, rank2_ := 0
    rank3_ := if 2 < maxRank then 0 else t.rank3_
    rank4_ := if 2 < maxRank then 0 else t.rank4_ }

section ResetFields

variable (maxRank : Fin 5) (t : InteractionTensor K) (dr : Fin 3 → K)

@[simp] theorem reset_dr_ : (reset maxRank t dr).dr_ = dr := rfl
@[simp] theorem reset_l3 : (reset maxRank t dr).l3 = t.l3 := rfl
@[simp] theorem reset_l5 : (reset maxRank t dr).l5 = t.l5 := rfl
@[simp] theorem reset_a2 : (reset maxRank t dr).a2 = t.a2 := rfl
@[simp] theorem reset_a3 : (reset maxRank t dr).a3 = t.a3 := rfl

end ResetFields

/-- `computeTensors(dr)`: `reset`, then the screening's variant. -/
def computeTensors (screen : Screening) (maxRank : Fin 5) (m : CMath K) (t : InteractionTensor K)
    (dr : Fin 3 → K) : InteractionTensor K :=
  let t := reset maxRank t dr
  match screen with
  | .none => noneTensors maxRank m t
  | .erfc => erfcTensors maxRank m t
  | .erf => erfTensors maxRank m t

/-- The radial factors of a screening. -/
def radial (screen : Screening) (m : CMath K) (t : InteractionTensor K) : Radial K :=
  match screen with
  | .none => noneRadial m t
  | .erfc => screenedRadial m t m.erfc 1
  | .erf => screenedRadial m t m.erf (-1)

/-- **`computeTensors` is one `fill`**, with the radial factors of its screening. -/
theorem computeTensors_eq (screen : Screening) (maxRank : Fin 5) (m : CMath K)
    (t : InteractionTensor K) (dr : Fin 3 → K) :
    computeTensors screen maxRank m t dr =
      fill maxRank (reset maxRank t dr) (radial screen m (reset maxRank t dr)) := by
  cases screen <;> rfl

end Model

/-! ## Invariance under permutations of the indices -/

/-- A tensor of rank `n` over three axes, read as a function of its index tuple, is invariant
under every permutation of its `n` index positions. -/
def PermInvariant {n : ℕ} (T : (Fin n → Fin 3) → K) : Prop :=
  ∀ (σ : Equiv.Perm (Fin n)) (idx : Fin n → Fin 3), T (idx ∘ σ) = T idx

/-- `rank3_(k, j, i)` is invariant under every permutation of `(k, j, i)`. -/
def PermInvariant3 (T : Fin 3 → Fin 3 → Fin 3 → K) : Prop :=
  PermInvariant fun idx : Fin 3 → Fin 3 => T (idx 0) (idx 1) (idx 2)

/-- `rank4_(l, k, j, i)` is invariant under every permutation of `(l, k, j, i)`. -/
def PermInvariant4 (T : Fin 3 → Fin 3 → Fin 3 → Fin 3 → K) : Prop :=
  PermInvariant fun idx : Fin 4 → Fin 3 => T (idx 0) (idx 1) (idx 2) (idx 3)

/-- Invariance under the transpositions of neighbouring positions is invariance under every
permutation: they generate the symmetric group. -/
theorem permInvariant_of_adjacent {m : ℕ} {T : (Fin (m + 1) → Fin 3) → K}
    (h : ∀ (i : Fin m) (idx : Fin (m + 1) → Fin 3),
      T (idx ∘ Equiv.swap i.castSucc i.succ) = T idx) : PermInvariant T := by
  intro σ
  induction σ using Submonoid.induction_of_closure_eq_top_right
    (Equiv.Perm.mclosure_swap_castSucc_succ m) with
  | H1 => exact fun idx => rfl
  | Hmul x y hy ih =>
    obtain ⟨i, rfl⟩ := hy
    intro idx
    rw [Equiv.Perm.coe_mul, ← Function.comp_assoc, h i (idx ∘ x), ih]

theorem permInvariant3_of_swaps {T : Fin 3 → Fin 3 → Fin 3 → K}
    (h01 : ∀ a b c, T b a c = T a b c) (h12 : ∀ a b c, T a c b = T a b c) :
    PermInvariant3 T :=
  permInvariant_of_adjacent fun i idx => by
    fin_cases i
    exacts [h01 _ _ _, h12 _ _ _]

theorem permInvariant4_of_swaps {T : Fin 3 → Fin 3 → Fin 3 → Fin 3 → K}
    (h01 : ∀ a b c d, T b a c d = T a b c d) (h12 : ∀ a b c d, T a c b d = T a b c d)
    (h23 : ∀ a b c d, T a b d c = T a b c d) : PermInvariant4 T :=
  permInvariant_of_adjacent fun i idx => by
    fin_cases i
    exacts [h01 _ _ _ _, h12 _ _ _ _, h23 _ _ _ _]

section Symmetric

variable [Field K]

/-- The rank-3 tensor of a radial kernel with radial factors `r5`, `r7` and damping `l5`, `l7`:
the code's formula with `δ(k, j)` in its last Kronecker term. -/
def rank3Sym (d : Fin 3 → K) (l5 l7 r5 r7 : K) (k j i : Fin 3) : K :=
  -15 * d k * d j * d i * l7 * r7 +
    3 * (d k * delta j i + d j * delta k i + d i * delta k j) * l5 * r5

/-- The rank-4 tensor of a radial kernel: the code's formula with `δ(l, i) δ(k, j)` in the last
term of `part3`. -/
def rank4Sym (d : Fin 3 → K) (l5 l7 l9 r5 r7 r9 : K) (l k j i : Fin 3) : K :=
  105 * (d l * d k * d j * d i) * r9 * l9 -
    15 * (d l * d k * delta j i + d l * d j * delta k i + d l * d i * delta k j +
      d k * d j * delta l i + d k * d i * delta l j + d j * d i * delta l k) * r7 * l7 +
    3 * (delta l k * delta j i + delta l j * delta k i + delta l i * delta k j) * r5 * l5

theorem rank3Sym_permInvariant (d : Fin 3 → K) (l5 l7 r5 r7 : K) :
    PermInvariant3 (rank3Sym d l5 l7 r5 r7) :=
  permInvariant3_of_swaps
    (fun a b c => by simp only [rank3Sym]; rw [delta_comm b a]; ring)
    (fun a b c => by simp only [rank3Sym]; rw [delta_comm c b]; ring)

theorem rank4Sym_permInvariant (d : Fin 3 → K) (l5 l7 l9 r5 r7 r9 : K) :
    PermInvariant4 (rank4Sym d l5 l7 l9 r5 r7 r9) :=
  permInvariant4_of_swaps
    (fun a b c d => by simp only [rank4Sym]; rw [delta_comm b a]; ring)
    (fun a b c d => by simp only [rank4Sym]; rw [delta_comm c b]; ring)
    (fun a b c d => by simp only [rank4Sym]; rw [delta_comm d c]; ring)

end Symmetric

/-! ## What `computeTensors` writes -/

section Tensors

variable [Field K] {maxRank : Fin 5} {t : InteractionTensor K} {ρ : Radial K}

/-- **Rank 3 is the symmetric tensor plus a defect** `3 l5 rR5 d_i (δ_ki - δ_kj)`. -/
theorem fill_rank3_eq (h : 2 < maxRank) (k j i : Fin 3) :
    (fill maxRank t ρ).rank3_ k j i = rank3Sym t.dr_ t.l5 t.l7 ρ.r5 ρ.r7 k j i +
      3 * (t.dr_ i * (delta k i - delta k j)) * t.l5 * ρ.r5 := by
  simp only [fill, if_pos h, rank3Sym]
  ring

/-- **Rank 4 is the symmetric tensor plus a defect** `3 l5 rR5 δ_li (δ_ki - δ_kj)`. -/
theorem fill_rank4_eq (h : 3 < maxRank) (l k j i : Fin 3) :
    (fill maxRank t ρ).rank4_ l k j i = rank4Sym t.dr_ t.l5 t.l7 t.l9 ρ.r5 ρ.r7 ρ.r9 l k j i +
      3 * (delta l i * (delta k i - delta k j)) * ρ.r5 * t.l5 := by
  simp only [fill, if_pos h, rank4Sym]
  ring

theorem delta_self (i : Fin 3) : (delta i i : K) = 1 := if_pos rfl

theorem delta_succ (i : Fin 3) : (delta (i + 1) i : K) = 0 :=
  if_neg (by fin_cases i <;> decide)

/-- **Rank 3 is invariant exactly when the defect vanishes**: for every displacement,
`l5 rR5 dr_a = 0` on every axis `a`. -/
theorem fill_rank3_permInvariant_iff [CharZero K] (h : 2 < maxRank) :
    PermInvariant3 (fill maxRank t ρ).rank3_ ↔ ∀ a, t.l5 * ρ.r5 * t.dr_ a = 0 := by
  constructor
  · intro hT a
    have hswap : (fill maxRank t ρ).rank3_ a (a + 1) a = (fill maxRank t ρ).rank3_ (a + 1) a a :=
      hT (Equiv.swap 0 1) ![a + 1, a, a]
    have hsym : rank3Sym t.dr_ t.l5 t.l7 ρ.r5 ρ.r7 a (a + 1) a =
        rank3Sym t.dr_ t.l5 t.l7 ρ.r5 ρ.r7 (a + 1) a a :=
      rank3Sym_permInvariant t.dr_ t.l5 t.l7 ρ.r5 ρ.r7 (Equiv.swap 0 1) ![a + 1, a, a]
    rw [fill_rank3_eq h, fill_rank3_eq h] at hswap
    rw [hsym, delta_self, delta_comm a, delta_succ] at hswap
    have h3 : (3 : K) * (t.l5 * ρ.r5 * t.dr_ a) = 0 := by linear_combination hswap
    exact (mul_eq_zero.1 h3).resolve_left (by norm_num)
  · intro hz
    have hT : (fill maxRank t ρ).rank3_ = rank3Sym t.dr_ t.l5 t.l7 ρ.r5 ρ.r7 := by
      funext k j i
      rw [fill_rank3_eq h]
      linear_combination (3 * (delta k i - delta k j)) * hz i
    rw [hT]
    exact rank3Sym_permInvariant _ _ _ _ _

/-- **Rank 4 is invariant exactly when the defect vanishes**: `l5 rR5 = 0`. -/
theorem fill_rank4_permInvariant_iff [CharZero K] (h : 3 < maxRank) :
    PermInvariant4 (fill maxRank t ρ).rank4_ ↔ t.l5 * ρ.r5 = 0 := by
  constructor
  · intro hT
    have hswap : (fill maxRank t ρ).rank4_ 0 0 1 0 = (fill maxRank t ρ).rank4_ 0 1 0 0 :=
      hT (Equiv.swap 1 2) ![0, 1, 0, 0]
    have hsym : rank4Sym t.dr_ t.l5 t.l7 t.l9 ρ.r5 ρ.r7 ρ.r9 0 0 1 0 =
        rank4Sym t.dr_ t.l5 t.l7 t.l9 ρ.r5 ρ.r7 ρ.r9 0 1 0 0 :=
      rank4Sym_permInvariant t.dr_ t.l5 t.l7 t.l9 ρ.r5 ρ.r7 ρ.r9 (Equiv.swap 1 2) ![0, 1, 0, 0]
    have h01 : (delta 0 1 : K) = 0 := if_neg (by decide)
    have h10 : (delta 1 0 : K) = 0 := if_neg (by decide)
    rw [fill_rank4_eq h, fill_rank4_eq h, hsym, delta_self, h01, h10] at hswap
    have h3 : (3 : K) * (t.l5 * ρ.r5) = 0 := by linear_combination hswap
    exact (mul_eq_zero.1 h3).resolve_left (by norm_num)
  · intro hz
    have hT : (fill maxRank t ρ).rank4_ = rank4Sym t.dr_ t.l5 t.l7 t.l9 ρ.r5 ρ.r7 ρ.r9 := by
      funext l k j i
      rw [fill_rank4_eq h]
      linear_combination (3 * (delta l i * (delta k i - delta k j))) * hz
    rw [hT]
    exact rank4Sym_permInvariant _ _ _ _ _ _ _

end Tensors

/-! ## `computeTensors` -/

/-- `sqrt` as the identity, exact at `1`; `noneTensors` reads nothing else of `<cmath>`. -/
def idMath : CMath ℚ := ⟨id, id, id, id, 1⟩

section Compute

variable [Field K] (screen : Screening) (maxRank : Fin 5) (m : CMath K) (t : InteractionTensor K)
  (dr : Fin 3 → K)

/-- **Rank 2 is symmetric**, for every screening, rank, state and displacement. -/
theorem computeTensors_rank2_symm (i j : Fin 3) :
    (computeTensors screen maxRank m t dr).rank2_ i j =
      (computeTensors screen maxRank m t dr).rank2_ j i := by
  rw [computeTensors_eq]
  simp only [fill]
  split_ifs
  · dsimp only
    rw [delta_comm]
    ring
  · rfl

/-- **Rank 3 is invariant exactly when its defect vanishes**: with `maxRank ≥ 3`, the rank-3
tensor `computeTensors` leaves is invariant under every permutation of its indices exactly when
`l5 rR5 dr_a = 0` on every axis, `rR5` the screening's radial factor. -/
theorem computeTensors_rank3_permInvariant_iff [CharZero K] (h : 2 < maxRank) :
    PermInvariant3 (computeTensors screen maxRank m t dr).rank3_ ↔
      ∀ a, t.l5 * (radial screen m (reset maxRank t dr)).r5 * dr a = 0 := by
  rw [computeTensors_eq]
  exact fill_rank3_permInvariant_iff h

/-- The characterisation of rank 3 for `1/r`, `alpha = 1`, no damping and `dr = (1, 0, 0)`. -/
theorem computeTensors_rank3_permInvariant_iff_unit :
    (2 : Fin 5) < 4 ∧
      (PermInvariant3 (computeTensors .none 4 idMath (InteractionTensor.new 4 1 0 0)
          ![1, 0, 0]).rank3_ ↔
        ∀ a, (InteractionTensor.new 4 (1 : ℚ) 0 0).l5 * (radial .none idMath
          (reset 4 (InteractionTensor.new 4 1 0 0) ![1, 0, 0])).r5 * ![1, 0, 0] a = 0) :=
  ⟨by decide, computeTensors_rank3_permInvariant_iff .none 4 idMath _ _ (by decide)⟩

/-- **Rank 4 is invariant exactly when its defect vanishes**: with `maxRank = 4`, the rank-4
tensor is invariant under every permutation of its indices exactly when `l5 rR5 = 0`. -/
theorem computeTensors_rank4_permInvariant_iff [CharZero K] (h : 3 < maxRank) :
    PermInvariant4 (computeTensors screen maxRank m t dr).rank4_ ↔
      t.l5 * (radial screen m (reset maxRank t dr)).r5 = 0 := by
  rw [computeTensors_eq]
  exact fill_rank4_permInvariant_iff h

/-- The characterisation of rank 4 for `1/r`, `alpha = 1`, no damping and `dr = (1, 0, 0)`. -/
theorem computeTensors_rank4_permInvariant_iff_unit :
    (3 : Fin 5) < 4 ∧
      (PermInvariant4 (computeTensors .none 4 idMath (InteractionTensor.new 4 1 0 0)
          ![1, 0, 0]).rank4_ ↔
        (InteractionTensor.new 4 (1 : ℚ) 0 0).l5 * (radial .none idMath
          (reset 4 (InteractionTensor.new 4 1 0 0) ![1, 0, 0])).r5 = 0) :=
  ⟨by decide, computeTensors_rank4_permInvariant_iff .none 4 idMath _ _ (by decide)⟩

end Compute

/-- **The tensors are not symmetric**: `InteractionTensor<Screening::none, 4>` with
`alpha = 1`, the default damping `l3 = … = l9 = 1` and `dr = (1, 0, 0)` has
`rank3(0, 1, 0) = 3` but `rank3(1, 0, 0) = 0`, and `rank4(0, 0, 1, 0) = 3` but
`rank4(0, 1, 0, 0) = 0`; the derivative tensors of `1/r` are `0` at all four. -/
theorem interactionTensor_asymmetric :
    (computeTensors .none 4 idMath (InteractionTensor.new 4 1 0 0) ![1, 0, 0]).rank3_ 0 1 0 = 3 ∧
    (computeTensors .none 4 idMath (InteractionTensor.new 4 1 0 0) ![1, 0, 0]).rank3_ 1 0 0 = 0 ∧
    (computeTensors .none 4 idMath (InteractionTensor.new 4 1 0 0) ![1, 0, 0]).rank4_ 0 0 1 0 = 3 ∧
    (computeTensors .none 4 idMath (InteractionTensor.new 4 1 0 0) ![1, 0, 0]).rank4_ 0 1 0 0 = 0 := by
  have h2 : (2 : Fin 5) < 4 := by decide
  have h3 : (3 : Fin 5) < 4 := by decide
  norm_num [computeTensors, reset, noneTensors, noneRadial, fill, norm, delta,
    InteractionTensor.new, idMath, h2, h3]

/-! ## The erfc/erf split

The screened kernels split `1/r`: `erfc(αr)/r + erf(αr)/r = 1/r`. The code computes each part
from its own radial factors, whose Gaussian terms enter with opposite signs, so the split holds
for the tensors the code writes only if those terms cancel at every rank. They do: the radial
factors of the two screenings add up to those of `1/r` (`screenedRadial_add`), and `fill` is
additive in the radial factors on a state `reset` has cleared (`fill_add`). -/

section Split

variable [Field K]

instance : Add (Radial K) :=
  ⟨fun ρ σ => ⟨ρ.r1 + σ.r1, ρ.r3 + σ.r3, ρ.r5 + σ.r5, ρ.r7 + σ.r7, ρ.r9 + σ.r9⟩⟩

@[simp] theorem Radial.add_r1 (ρ σ : Radial K) : (ρ + σ).r1 = ρ.r1 + σ.r1 := rfl
@[simp] theorem Radial.add_r3 (ρ σ : Radial K) : (ρ + σ).r3 = ρ.r3 + σ.r3 := rfl
@[simp] theorem Radial.add_r5 (ρ σ : Radial K) : (ρ + σ).r5 = ρ.r5 + σ.r5 := rfl
@[simp] theorem Radial.add_r7 (ρ σ : Radial K) : (ρ + σ).r7 = ρ.r7 + σ.r7 := rfl
@[simp] theorem Radial.add_r9 (ρ σ : Radial K) : (ρ + σ).r9 = ρ.r9 + σ.r9 := rfl

/-- The tensors of `c` are those of `a` and `b` added: ranks `0` to `2` always, ranks `3` and
`4` once `maxRank > 2`, when `computeTensors` clears them. -/
def TensorsAdd (maxRank : Fin 5) (a b c : InteractionTensor K) : Prop :=
  a.rank0_ + b.rank0_ = c.rank0_ ∧ a.rank1_ + b.rank1_ = c.rank1_ ∧
    a.rank2_ + b.rank2_ = c.rank2_ ∧
    (2 < maxRank → a.rank3_ + b.rank3_ = c.rank3_ ∧ a.rank4_ + b.rank4_ = c.rank4_)

/-- What `reset` leaves in the tensors that `fill` may not overwrite. -/
structure Cleared (maxRank : Fin 5) (t : InteractionTensor K) : Prop where
  /-- `rank1_`, which `fill` keeps when `maxRank = 0` -/
  rank1 : t.rank1_ = 0
  /-- `rank2_`, which `fill` keeps when `maxRank ≤ 1` -/
  rank2 : t.rank2_ = 0
  /-- `rank4_`, which `fill` keeps when `maxRank = 3` -/
  rank4 : 2 < maxRank → t.rank4_ = 0

theorem reset_cleared (maxRank : Fin 5) (t : InteractionTensor K) (dr : Fin 3 → K) :
    Cleared maxRank (reset maxRank t dr) :=
  ⟨rfl, rfl, fun h => if_pos h⟩

/-- **`fill` is additive in the radial factors**, on a cleared state. -/
theorem fill_add {maxRank : Fin 5} {t : InteractionTensor K} (hc : Cleared maxRank t)
    (ρ σ : Radial K) :
    TensorsAdd maxRank (fill maxRank t ρ) (fill maxRank t σ) (fill maxRank t (ρ + σ)) := by
  refine ⟨rfl, ?_, ?_, fun h => ⟨?_, ?_⟩⟩ <;> simp only [fill]
  · split_ifs
    · funext i; simp only [Pi.add_apply, Radial.add_r3]; ring
    · rw [hc.rank1, add_zero]
  · split_ifs
    · funext i j; simp only [Pi.add_apply, Radial.add_r3, Radial.add_r5]; ring
    · rw [hc.rank2, add_zero]
  · simp only [if_pos h]
    funext k j i; simp only [Pi.add_apply, Radial.add_r5, Radial.add_r7]; ring
  · split_ifs
    · funext l k j i; simp only [Pi.add_apply, Radial.add_r5, Radial.add_r7, Radial.add_r9]; ring
    · rw [hc.rank4 h, add_zero]

/-- **The Gaussian terms cancel**: where `erfc x + erf x = 1`, the radial factors of the erfc
and erf variants add up to those of `1/r`, each `rR2` times the sum before it. -/
theorem screenedRadial_add (m : CMath K) (t : InteractionTensor K)
    (hsplit : ∀ x, m.erfc x + m.erf x = 1) :
    screenedRadial m t m.erfc 1 + screenedRadial m t m.erf (-1) = noneRadial m t := by
  have h1 := hsplit (t.a1 * norm m t.dr_)
  set rR := 1 / norm m t.dr_
  ext <;> simp only [screenedRadial, noneRadial, Radial.add_r1, Radial.add_r3, Radial.add_r5,
    Radial.add_r7, Radial.add_r9]
  · linear_combination rR * h1
  · linear_combination rR ^ 3 * h1
  · linear_combination rR ^ 5 * h1
  · linear_combination rR ^ 7 * h1
  · linear_combination rR ^ 9 * h1

/-- **The erfc and erf tensors add up to the tensors of `1/r`**, at every rank `computeTensors`
writes or clears, for every displacement, damping and `alpha`, wherever `erfc + erf = 1`. -/
theorem computeTensors_erfc_add_erf (maxRank : Fin 5) (m : CMath K) (t : InteractionTensor K)
    (dr : Fin 3 → K) (hsplit : ∀ x, m.erfc x + m.erf x = 1) :
    TensorsAdd maxRank (computeTensors .erfc maxRank m t dr) (computeTensors .erf maxRank m t dr)
      (computeTensors .none maxRank m t dr) := by
  simp only [computeTensors_eq, radial]
  rw [← screenedRadial_add m _ hsplit]
  exact fill_add (reset_cleared maxRank t dr) _ _

end Split

/-- `erf` as the identity and `erfc = 1 - erf`: a stand-in that splits `1` at every point. -/
def splitMath : CMath ℚ := ⟨id, id, id, fun x => 1 - x, 3⟩

/-- The split for `maxRank = 4`, `alpha = 1` and `dr = (1, 2, 0)`. -/
theorem computeTensors_erfc_add_erf_unitAlpha :
    (∀ x, splitMath.erfc x + splitMath.erf x = 1) ∧
      TensorsAdd 4 (computeTensors .erfc 4 splitMath (InteractionTensor.new 4 1 0 0) ![1, 2, 0])
        (computeTensors .erf 4 splitMath (InteractionTensor.new 4 1 0 0) ![1, 2, 0])
        (computeTensors .none 4 splitMath (InteractionTensor.new 4 1 0 0) ![1, 2, 0]) :=
  have hsplit : ∀ x, splitMath.erfc x + splitMath.erf x = 1 := fun x => sub_add_cancel 1 x
  ⟨hsplit, computeTensors_erfc_add_erf 4 splitMath _ _ hsplit⟩

/-! ## The trace of rank 2

Rank 2 is the Hessian of the kernel, and its trace the Laplacian: `0` for `1/r` away from the
origin, and `±4α³/√π · exp(-α²r²)` for the erfc and erf kernels, the Gaussian charge that
screens them (Poisson's equation). The code's tensors have that trace when `l3 = l5`, whenever
`sqrt` is exact at `|dr|²` and `dr ≠ 0`: rank 2 has trace `3 (l5 |dr|² rR5 - l3 rR3)`
(`fill_rank2_trace`), and `|dr|² rR5 = rR3` plus the Gaussian term (`noneRadial_r5`,
`screenedRadial_r5`). -/

section Trace

variable [Field K] {m : CMath K} {t : InteractionTensor K}

/-- `|dr|²`, of which `dr_.norm()` takes the square root. -/
def sqNorm (v : Fin 3 → K) : K := v 0 * v 0 + v 1 * v 1 + v 2 * v 2

theorem fill_rank2_trace {maxRank : Fin 5} (h : 1 < maxRank) (ρ : Radial K) :
    ∑ i, (fill maxRank t ρ).rank2_ i i = 3 * (t.l5 * (sqNorm t.dr_ * ρ.r5) - t.l3 * ρ.r3) := by
  simp only [fill, if_pos h, Fin.sum_univ_three, delta_self, sqNorm]
  ring

/-- `rR2` undoes `|dr|²` where `sqrt` is exact and `dr ≠ 0`. -/
theorem sqNorm_mul_rR2 (hR0 : norm m t.dr_ ≠ 0)
    (hR : norm m t.dr_ * norm m t.dr_ = sqNorm t.dr_) :
    sqNorm t.dr_ * (1 / norm m t.dr_ * (1 / norm m t.dr_)) = 1 := by
  rw [← hR]
  field_simp

theorem noneRadial_r5 (hR0 : norm m t.dr_ ≠ 0) (hR : norm m t.dr_ * norm m t.dr_ = sqNorm t.dr_) :
    sqNorm t.dr_ * (noneRadial m t).r5 = (noneRadial m t).r3 := by
  have h5 : (noneRadial m t).r5 = (noneRadial m t).r3 * (1 / norm m t.dr_ * (1 / norm m t.dr_)) :=
    rfl
  rw [h5]
  linear_combination (noneRadial m t).r3 * sqNorm_mul_rR2 hR0 hR

theorem screenedRadial_r5 (kernel : K → K) (sign : K) (hR0 : norm m t.dr_ ≠ 0)
    (hR : norm m t.dr_ * norm m t.dr_ = sqNorm t.dr_) :
    sqNorm t.dr_ * (screenedRadial m t kernel sign).r5 = (screenedRadial m t kernel sign).r3 +
      sign * (4 / 3 * t.a3 * (1 / m.sqrt m.pi * m.exp (-t.a2 * norm m t.dr_ * norm m t.dr_))) := by
  set gauss := sign * (4 / 3 * t.a3 * (1 / m.sqrt m.pi * m.exp (-t.a2 * norm m t.dr_ * norm m t.dr_)))
  have h5 : (screenedRadial m t kernel sign).r5 =
      1 / norm m t.dr_ * (1 / norm m t.dr_) * ((screenedRadial m t kernel sign).r3 + gauss) :=
    rfl
  rw [h5]
  linear_combination ((screenedRadial m t kernel sign).r3 + gauss) * sqNorm_mul_rR2 hR0 hR

variable (maxRank : Fin 5) (dr : Fin 3 → K)

/-- **The trace of rank 2 is the Laplacian of the kernel**: `3 (l5 - l3) rR3` for `1/r`, and
for the erfc and erf kernels that plus or minus the Gaussian charge `4 l5 α³/√π exp(-α²r²)`,
whenever `maxRank ≥ 2`, `dr ≠ 0` and `sqrt` is exact at `|dr|²`. With `l3 = l5`, as
`InteractionTensor.new` sets them, `1/r` is harmonic. -/
theorem computeTensors_rank2_trace [CharZero K] (h : 1 < maxRank) (hR0 : norm m dr ≠ 0)
    (hR : norm m dr * norm m dr = sqNorm dr) :
    let trace := fun screen => ∑ i, (computeTensors screen maxRank m t dr).rank2_ i i
    let gauss := 4 * t.l5 * t.a3 * (1 / m.sqrt m.pi * m.exp (-t.a2 * norm m dr * norm m dr))
    trace .none = 3 * (t.l5 - t.l3) * (radial .none m (reset maxRank t dr)).r3 ∧
      trace .erfc = 3 * (t.l5 - t.l3) * (radial .erfc m (reset maxRank t dr)).r3 + gauss ∧
      trace .erf = 3 * (t.l5 - t.l3) * (radial .erf m (reset maxRank t dr)).r3 - gauss := by
  simp only [computeTensors_eq, fill_rank2_trace h, radial]
  refine ⟨?_, ?_, ?_⟩
  · rw [noneRadial_r5 (t := reset maxRank t dr) hR0 hR, reset_l3, reset_l5]; ring
  all_goals
    rw [screenedRadial_r5 (t := reset maxRank t dr) _ _ hR0 hR]
    simp only [reset_l3, reset_l5, reset_a2, reset_a3, reset_dr_]
    ring

end Trace

/-- The trace for `maxRank = 4`, `alpha = 1`, no damping and `dr = (1, 0, 0)`. -/
theorem computeTensors_rank2_trace_unit :
    (1 : Fin 5) < 4 ∧ norm idMath ![(1 : ℚ), 0, 0] ≠ 0 ∧
      norm idMath ![(1 : ℚ), 0, 0] * norm idMath ![1, 0, 0] = sqNorm ![1, 0, 0] ∧
      ∑ i, (computeTensors .none 4 idMath (InteractionTensor.new 4 1 0 0) ![1, 0, 0]).rank2_ i i =
        3 * ((InteractionTensor.new 4 (1 : ℚ) 0 0).l5 - (InteractionTensor.new 4 1 0 0).l3) *
          (radial .none idMath (reset 4 (InteractionTensor.new 4 1 0 0) ![1, 0, 0])).r3 := by
  have h1 : (1 : Fin 5) < 4 := by decide
  have hR0 : norm idMath ![(1 : ℚ), 0, 0] ≠ 0 := by norm_num [norm, idMath]
  have hR : norm idMath ![(1 : ℚ), 0, 0] * norm idMath ![1, 0, 0] = sqNorm ![1, 0, 0] := by
    norm_num [norm, idMath, sqNorm]
  exact ⟨h1, hR0, hR, (computeTensors_rank2_trace 4 ![1, 0, 0] h1 hR0 hR).1⟩

end Votca.Xtp
