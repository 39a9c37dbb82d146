import Mathlib

/-!
# Storage and collaborators of the force-matching engine

`CGForceMatching` (`csg_fmatch.cc`) keeps its fit system in ublas matrices and vectors and
calls three libraries it does not define: VOTCA's `CubicSpline`, the topology of a trajectory
frame with its neighbour list, and GSL's QR routines. This module fixes how the model sees
each of them. Scalars live in a field `K`, the stand-in for `double` in exact arithmetic.

* `UMatrix` / `UVector` — ublas storage: a size and an entry function. `resize (…, false)`
  hands out storage whose contents the program never wrote, so the model takes those contents
  as an input (`stale`) instead of pretending they are zero.
* `Entry` — one `M(row, col) += value`. The frame loops return the entries they add, so the
  rows a frame writes are data that can be stated and checked.
* `CubicSpline` — the spline collaborator after `GenerateGrid`: its grid, the basis weights
  it injects at a point, the smoothness rows of `AddBCToFitMatrix`, and point evaluation.
  Evaluation uses the same weights as the fit rows; that is the contract which makes a fit
  row encode the spline.
* `Topology` — one frame as `EvalConfiguration` reads it. Every frame reads `getBead(0)`, so a
  topology carries a bead by construction. `Numerics` — `sqrt` and GSL's
  `QR_decomp`/`QR_lssolve`, treated as arbitrary functions.
-/

namespace Votca

open Finset

variable {K : Type*}

/-! ## Vectors of `vec` -/

/-- A three-vector of VOTCA's `vec` class. -/
structure Vec3 (K : Type*) where
  /-- `x()` -/
  x : K
  /-- `y()` -/
  y : K
  /-- `z()` -/
  z : K

/-- The Cartesian component `a` of a vector: `x`, `y`, `z` for `a = 0, 1, 2`. -/
def Vec3.get (v : Vec3 K) : Fin 3 → K
  | 0 => v.x
  | 1 => v.y
  | 2 => v.z

/-- `vec::normalize()`: scale by `1 / abs(v)`, where `abs(v)` is `sqrt(v * v)`. -/
def Vec3.normalize [Field K] (sqrt : K → K) (v : Vec3 K) : Vec3 K :=
  let a := 1 / sqrt (v.x * v.x + v.y * v.y + v.z * v.z)
  ⟨a * v.x, a * v.y, a * v.z⟩

/-- The negated vector, as `-gradient.x()` and so on read it. -/
def Vec3.neg [Neg K] (v : Vec3 K) : Vec3 K := ⟨-v.x, -v.y, -v.z⟩

@[simp] theorem Vec3.neg_get [Neg K] (v : Vec3 K) (a : Fin 3) : v.neg.get a = -v.get a :=
  match a with
  | 0 | 1 | 2 => rfl

/-! ## ublas storage -/

/-- One `M(row, col) += val`. -/
structure Entry (K : Type*) where
  /-- the row written -/
  row : ℕ
  /-- the column written -/
  col : ℕ
  /-- the value added -/
  val : K

/-- A ublas `matrix<double>`: its shape and its storage. -/
structure UMatrix (K : Type*) where
  /-- `size1()`: rows -/
  size1 : ℕ
  /-- `size2()`: columns -/
  size2 : ℕ
  /-- `M(i, j)` -/
  entry : ℕ → ℕ → K

/-- A ublas `vector<double>`. -/
structure UVector (K : Type*) where
  /-- `size()` -/
  size : ℕ
  /-- `v(i)` -/
  entry : ℕ → K

namespace UMatrix

/-- `resize (size1, size2, false)`: the new shape over fresh storage holding `stale`. -/
def resize (size1 size2 : ℕ) (stale : ℕ → ℕ → K) : UMatrix K := ⟨size1, size2, stale⟩

/-- `M(i, j) = v`. -/
def set (M : UMatrix K) (i j : ℕ) (v : K) : UMatrix K :=
  { M with entry := fun r c => if i = r ∧ j = c then v else M.entry r c }

@[simp] theorem set_size1 (M : UMatrix K) (i j : ℕ) (v : K) : (M.set i j v).size1 = M.size1 := rfl
@[simp] theorem set_size2 (M : UMatrix K) (i j : ℕ) (v : K) : (M.set i j v).size2 = M.size2 := rfl

variable [Field K]

/-- `clear()`: every entry zero, the shape kept. -/
def clear (M : UMatrix K) : UMatrix K := { M with entry := fun _ _ => 0 }

/-- A zero matrix of the given shape, as `resize` followed by `clear` leaves it. -/
def zero (size1 size2 : ℕ) : UMatrix K := ⟨size1, size2, fun _ _ => 0⟩

/-- `M(e.row, e.col) += e.val`. -/
def add (M : UMatrix K) (e : Entry K) : UMatrix K :=
  { M with entry := fun r c => if e.row = r ∧ e.col = c then M.entry r c + e.val else M.entry r c }

/-- The entries added one after another, in order. -/
def addEntries (M : UMatrix K) (es : List (Entry K)) : UMatrix K := es.foldl add M

/-- `prod(M, c)`, row `i`: the sum over the `size2` columns. -/
def mulVec (M : UMatrix K) (c : ℕ → K) (i : ℕ) : K :=
  ∑ j ∈ range M.size2, M.entry i j * c j

@[simp] theorem clear_size1 (M : UMatrix K) : M.clear.size1 = M.size1 := rfl
@[simp] theorem clear_size2 (M : UMatrix K) : M.clear.size2 = M.size2 := rfl
@[simp] theorem clear_entry (M : UMatrix K) (i j : ℕ) : M.clear.entry i j = 0 := rfl
@[simp] theorem add_size1 (M : UMatrix K) (e : Entry K) : (M.add e).size1 = M.size1 := rfl
@[simp] theorem add_size2 (M : UMatrix K) (e : Entry K) : (M.add e).size2 = M.size2 := rfl

@[simp] theorem addEntries_nil (M : UMatrix K) : M.addEntries [] = M := rfl

@[simp] theorem addEntries_cons (M : UMatrix K) (e : Entry K) (es : List (Entry K)) :
    M.addEntries (e :: es) = (M.add e).addEntries es := rfl

theorem addEntries_append (M : UMatrix K) (es fs : List (Entry K)) :
    M.addEntries (es ++ fs) = (M.addEntries es).addEntries fs := List.foldl_append _ _ _ _

@[simp] theorem addEntries_size1 (M : UMatrix K) (es : List (Entry K)) :
    (M.addEntries es).size1 = M.size1 := by
  induction es generalizing M <;> simp [*]

@[simp] theorem addEntries_size2 (M : UMatrix K) (es : List (Entry K)) :
    (M.addEntries es).size2 = M.size2 := by
  induction es generalizing M <;> simp [*]

/-- `prod(M, c)` reads `c` only on the columns of `M`. -/
theorem mulVec_congr (M : UMatrix K) {c c' : ℕ → K} (h : ∀ j < M.size2, c j = c' j) (i : ℕ) :
    M.mulVec c i = M.mulVec c' i :=
  sum_congr rfl fun j hj => by rw [h j (mem_range.1 hj)]

/-- What one `+=` does to a row of `prod(M, c)`: a term appears when the entry is on the row
and inside the matrix. -/
theorem mulVec_add (M : UMatrix K) (e : Entry K) (c : ℕ → K) (i : ℕ) :
    (M.add e).mulVec c i =
      M.mulVec c i + if e.row = i ∧ e.col < M.size2 then e.val * c e.col else 0 := by
  simp only [mulVec, add, add_size2]
  have hsplit : ∀ j, (if e.row = i ∧ e.col = j then M.entry i j + e.val else M.entry i j) * c j
      = M.entry i j * c j + if e.col = j then (if e.row = i then e.val * c e.col else 0) else 0 := by
    intro j
    by_cases hj : e.col = j
    · subst hj
      by_cases hi : e.row = i <;> simp [hi, add_mul]
    · simp [hj]
  rw [sum_congr rfl fun j _ => hsplit j, sum_add_distrib, sum_ite_eq]
  by_cases hi : e.row = i <;> simp [hi, and_comm]

/-- **Rows of an accumulated matrix**: `prod(M, c)` after a list of `+=` is the old product
plus one term for every entry on the row and inside the matrix. -/
theorem mulVec_addEntries (M : UMatrix K) (es : List (Entry K)) (c : ℕ → K) (i : ℕ) :
    (M.addEntries es).mulVec c i = M.mulVec c i +
      ((es.filter fun e => e.row = i ∧ e.col < M.size2).map fun e => e.val * c e.col).sum := by
  induction es generalizing M with
  | nil => simp
  | cons e es ih =>
    rw [addEntries_cons, ih, mulVec_add, add_size2, List.filter_cons]
    by_cases h : e.row = i ∧ e.col < M.size2 <;> simp [h, add_assoc]

end UMatrix

namespace UVector

/-- `resize (size, false)` over fresh storage holding `stale`. -/
def resize (size : ℕ) (stale : ℕ → K) : UVector K := ⟨size, stale⟩

/-- `v(i) = a`. -/
def set (v : UVector K) (i : ℕ) (a : K) : UVector K :=
  { v with entry := fun r => if r = i then a else v.entry r }

/-- The assignments made one after another, in order. -/
def setEntries (v : UVector K) (as : List (ℕ × K)) : UVector K :=
  as.foldl (fun v p => v.set p.1 p.2) v

@[simp] theorem set_size (v : UVector K) (i : ℕ) (a : K) : (v.set i a).size = v.size := rfl

@[simp] theorem set_entry (v : UVector K) (i : ℕ) (a : K) (r : ℕ) :
    (v.set i a).entry r = if r = i then a else v.entry r := rfl

@[simp] theorem setEntries_size (v : UVector K) (as : List (ℕ × K)) :
    (v.setEntries as).size = v.size := by
  induction as generalizing v <;> simp_all [setEntries]

/-- An entry no assignment names keeps its value. -/
theorem setEntries_entry_of_forall_ne (v : UVector K) (as : List (ℕ × K)) {r : ℕ}
    (h : ∀ p ∈ as, p.1 ≠ r) : (v.setEntries as).entry r = v.entry r := by
  induction as generalizing v with
  | nil => rfl
  | cons p as ih =>
    simp only [List.mem_cons, forall_eq_or_imp] at h
    simp only [setEntries, List.foldl_cons] at ih ⊢
    rw [ih _ h.2, set_entry, if_neg (Ne.symm h.1)]

/-- An entry every assignment to it sets to `a` holds `a`. -/
theorem setEntries_entry_of_unique (v : UVector K) (as : List (ℕ × K)) {r : ℕ} {a : K}
    (hr : ∃ p ∈ as, p.1 = r) (ha : ∀ p ∈ as, p.1 = r → p.2 = a) :
    (v.setEntries as).entry r = a := by
  induction as generalizing v with
  | nil => simp at hr
  | cons p as ih =>
    simp only [List.mem_cons, forall_eq_or_imp] at ha
    change ((v.set p.1 p.2).setEntries as).entry r = a
    by_cases hin : ∃ q ∈ as, q.1 = r
    · exact ih _ hin ha.2
    · push_neg at hin
      obtain ⟨q, hq, hqr⟩ := hr
      obtain rfl | hq := List.mem_cons.1 hq
      · rw [setEntries_entry_of_forall_ne _ _ hin, set_entry, if_pos hqr.symm, ha.1 hqr]
      · exact absurd hqr (hin q hq)

@[simp] theorem foldl_set_size (f : ℕ → K) (l : List ℕ) (v : UVector K) :
    (l.foldl (fun v i => v.set i (f i)) v).size = v.size := by
  induction l generalizing v <;> simp_all

/-- After a loop `for i in l: v(i) = f(i)`, a visited index holds `f i`, any other keeps its
value. -/
theorem foldl_set_entry (f : ℕ → K) (l : List ℕ) (v : UVector K) (j : ℕ) :
    (l.foldl (fun v i => v.set i (f i)) v).entry j = if j ∈ l then f j else v.entry j := by
  induction l generalizing v with
  | nil => simp
  | cons i l ih =>
    rw [List.foldl_cons, ih]
    by_cases hj : j ∈ l
    · simp [hj]
    · by_cases hji : j = i <;> simp [hj, hji]

variable [Field K]

/-- `clear()`. -/
def clear (v : UVector K) : UVector K := { v with entry := fun _ => 0 }

/-- A zero vector of the given size. -/
def zero (size : ℕ) : UVector K := ⟨size, fun _ => 0⟩

@[simp] theorem clear_size (v : UVector K) : v.clear.size = v.size := rfl
@[simp] theorem clear_entry (v : UVector K) (i : ℕ) : v.clear.entry i = 0 := rfl

end UVector

/-! ## The spline collaborator -/

/-- The part of VOTCA's `CubicSpline` the engine calls, once `GenerateGrid` has built its
grid. The two side conditions are the collaborator's contract: a fit row stays inside the
spline's own `2 * size` coefficients, and its smoothness rows inside its `size` rows. -/
structure CubicSpline (K : Type*) where
  /-- the number of grid points, as `GenerateGrid` returns it -/
  size : ℕ
  /-- `getGridPoint(i)` -/
  getGridPoint : ℕ → K
  /-- the basis weights at `x`: `AddToFitMatrix` adds `weight * scale` at `offset2 + col` -/
  basis : K → List (ℕ × K)
  /-- the entries `AddBCToFitMatrix` sets, relative to its row and column offsets -/
  bc : List (ℕ × ℕ × K)
  basis_lt : ∀ x, ∀ p ∈ basis x, p.1 < 2 * size
  bc_lt : ∀ e ∈ bc, e.1 < size ∧ e.2.1 < 2 * size

namespace CubicSpline

/-- `AddBCToFitMatrix(M, offset1, offset2)`: the smoothness entries set at the offsets. -/
def addBCToFitMatrix (sp : CubicSpline K) (M : UMatrix K) (offset1 offset2 : ℕ) :
    UMatrix K :=
  sp.bc.foldl (fun M e => M.set (offset1 + e.1) (offset2 + e.2.1) e.2.2) M

@[simp] theorem addBCToFitMatrix_size1 (sp : CubicSpline K) (M : UMatrix K) (o1 o2 : ℕ) :
    (sp.addBCToFitMatrix M o1 o2).size1 = M.size1 := by
  simp only [addBCToFitMatrix]
  induction sp.bc generalizing M <;> simp_all

@[simp] theorem addBCToFitMatrix_size2 (sp : CubicSpline K) (M : UMatrix K) (o1 o2 : ℕ) :
    (sp.addBCToFitMatrix M o1 o2).size2 = M.size2 := by
  simp only [addBCToFitMatrix]
  induction sp.bc generalizing M <;> simp_all

/-- The smoothness rows stay in the `size` rows from `offset1`: rows past them keep their
entries. -/
theorem addBCToFitMatrix_entry_of_le (sp : CubicSpline K) (M : UMatrix K) {o1 r : ℕ} (o2 : ℕ)
    (hr : o1 + sp.size ≤ r) (col : ℕ) :
    (sp.addBCToFitMatrix M o1 o2).entry r col = M.entry r col := by
  have h : ∀ e ∈ sp.bc, o1 + e.1 ≠ r := fun e he => by have := (sp.bc_lt e he).1; omega
  rw [addBCToFitMatrix]
  generalize sp.bc = l at h ⊢
  induction l generalizing M with
  | nil => rfl
  | cons e l ih =>
    simp only [List.mem_cons, forall_eq_or_imp] at h
    rw [List.foldl_cons, ih _ h.2]
    simp [UMatrix.set, h.1]

variable [Field K]

/-- `Calculate(x)` once `setSplineData(data)` has loaded the coefficients `data`. -/
def calculate (sp : CubicSpline K) (data : ℕ → K) (x : K) : K :=
  ((sp.basis x).map fun p => p.2 * data p.1).sum

/-- `AddToFitMatrix(M, x, offset1, offset2, scale)`: the entries it adds to row `offset1`. -/
def addToFitMatrix (sp : CubicSpline K) (x : K) (offset1 offset2 : ℕ) (scale : K) :
    List (Entry K) :=
  (sp.basis x).map fun p => ⟨offset1, offset2 + p.1, p.2 * scale⟩

/-- Every entry `AddToFitMatrix` adds lies on its row. -/
theorem addToFitMatrix_row (sp : CubicSpline K) {x : K} {o1 o2 : ℕ} {s : K} {e : Entry K}
    (h : e ∈ sp.addToFitMatrix x o1 o2 s) : e.row = o1 := by
  obtain ⟨p, -, rfl⟩ := List.mem_map.1 h
  rfl

/-- Every entry `AddToFitMatrix` adds lies in the spline's column block. -/
theorem addToFitMatrix_col (sp : CubicSpline K) {x : K} {o1 o2 : ℕ} {s : K} {e : Entry K}
    (h : e ∈ sp.addToFitMatrix x o1 o2 s) : o2 ≤ e.col ∧ e.col < o2 + 2 * sp.size := by
  obtain ⟨p, hp, rfl⟩ := List.mem_map.1 h
  have := sp.basis_lt x p hp
  dsimp only
  omega

/-- **A fit row encodes the spline**: against any coefficient vector `c`, the row
`AddToFitMatrix` writes is `scale` times the spline whose coefficients are the block of `c`
at `offset2`. -/
theorem addToFitMatrix_apply (sp : CubicSpline K) (x : K) (o1 o2 : ℕ) (s : K) (c : ℕ → K) :
    ((sp.addToFitMatrix x o1 o2 s).map fun e => e.val * c e.col).sum =
      s * sp.calculate (fun i => c (o2 + i)) x := by
  rw [calculate, ← List.sum_map_mul_left, addToFitMatrix, List.map_map]
  congr 1
  refine List.map_congr_left fun p _ => ?_
  simp only [Function.comp_apply]
  rw [mul_comm p.2 s, mul_assoc]

end CubicSpline

/-! ## A trajectory frame -/

/-- One bonded interaction of a frame (bond, angle or dihedral). -/
structure Interaction (K : Type*) where
  /-- `(getBeadId(loop), Grad(conf, loop))` for `loop < BeadCount()` -/
  beads : List (ℕ × Vec3 K)
  /-- `EvaluateVar(conf)`: the bond length, angle or dihedral -/
  var : K

/-- One pair of a neighbour list. -/
structure BeadPair (K : Type*) where
  /-- `first->getId()` -/
  first : ℕ
  /-- `second->getId()` -/
  second : ℕ
  /-- `dist()` -/
  dist : K
  /-- `r()`, the separation vector -/
  r : Vec3 K

/-- A bead of a frame, as the force loop reads it. -/
structure Bead (K : Type*) where
  /-- `HasF()` -/
  hasF : Bool
  /-- `getF()` -/
  getF : Vec3 K

/-- A frame of the trajectory, as `EvalConfiguration` reads it. Every frame reads `getBead(0)`,
which an empty topology does not have: a topology has a bead. -/
structure Topology (K : Type*) where
  /-- `getBead(i)` for `i < BeadCount()` -/
  beads : List (Bead K)
  /-- `getBead(0)` exists -/
  beads_ne_nil : beads ≠ []
  /-- `InteractionsInGroup(name)` -/
  interactionsInGroup : String → List (Interaction K)
  /-- `NBL.Generate(beads1, true)`, within the cutoff, for beads of one type -/
  nbSame : K → String → List (BeadPair K)
  /-- `NBL.Generate(beads1, beads2, true)`, within the cutoff, for two types -/
  nbCross : K → String → String → List (BeadPair K)

/-- `getBead(0)->HasF()`: whether the frame carries forces, as its first bead says. -/
def Topology.hasF (conf : Topology K) : Bool := (conf.beads.head conf.beads_ne_nil).hasF

/-- `getBead(i)->getF()`; the force loop reads it for `i < N`, where a frame of the topology
`BeginCG` counted has its bead (`BeadsIn`). -/
def Topology.getF [Zero K] (conf : Topology K) (i : ℕ) : Vec3 K :=
  (conf.beads[i]?.map Bead.getF).getD ⟨0, 0, 0⟩

/-! ## Numerical libraries -/

/-- The numerical routines the engine calls without defining them. `QR_decomp` returns the
packed factor it leaves in place of its `size1 × size2` argument, with `tau`; `QR_lssolve`
returns the `x` it writes. -/
structure Numerics (K : Type*) where
  /-- `sqrt` -/
  sqrt : K → K
  /-- `gsl_linalg_QR_decomp` -/
  QR_decomp : ℕ → ℕ → (ℕ → ℕ → K) → (ℕ → ℕ → K) × (ℕ → K)
  /-- `gsl_linalg_QR_lssolve (QR, tau, b)` -/
  QR_lssolve : ℕ → ℕ → (ℕ → ℕ → K) → (ℕ → K) → (ℕ → K) → (ℕ → K)

/-- GSL replaced by the identity: `QR_decomp` leaves its argument in place with `tau = 0`,
`QR_lssolve` returns `b` and `sqrt` is the identity. Its factorisation is exact for every
matrix that is already upper triangular. -/
def idNumerics [Zero K] : Numerics K := ⟨id, fun _ _ M => (M, fun _ => 0), fun _ _ _ _ b => b⟩

/-! ## Options -/

/-- The options of one interaction channel, as `SplineInfo` reads its `Property` node. -/
structure ChannelOptions (K : Type*) where
  /-- `name` -/
  name : String
  /-- `type1` (non-bonded channels) -/
  type1 : String
  /-- `type2` (non-bonded channels) -/
  type2 : String
  /-- `fmatch.min` -/
  min : K
  /-- `fmatch.max`, also the neighbour-list cutoff -/
  max : K
  /-- `fmatch.step` -/
  step : K
  /-- `fmatch.res_output_coeff` -/
  res_output_coeff : ℕ

/-- The options `BeginCG` reads. -/
structure Options (K : Type*) where
  /-- `cg.fmatch.frames_per_block` -/
  frames_per_block : ℕ
  /-- `cg.fmatch.constrainedLS` -/
  constrainedLS : Bool
  /-- `cg.bonded` -/
  bonded : List (ChannelOptions K)
  /-- `cg.non-bonded` -/
  nonbonded : List (ChannelOptions K)

end Votca
