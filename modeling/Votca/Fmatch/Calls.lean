import Votca.Fmatch.EndCG

/-!
# The dimensions of the calls to GSL and to the spline

`FmatchAccumulateData` allocates GSL vectors and calls `gsl_linalg_QR_decomp` and
`gsl_linalg_QR_lssolve`; every block ends with `setSplineData(block_res)` on every channel, and
`EndCG` calls `setSplineData(result)`. Each routine requires dimensions of its arguments: a
positive length for `gsl_vector_alloc`, `tau` of length `min(rows, cols)` for the
factorisation, `rows ≥ cols` and matching `b`, `x`, `residual` for the solve, and `2(n + 1)`
coefficients for a spline of `n + 1` grid points.

`accumulateCalls` and `endCGCalls` list the calls with the dimensions the program passes, read
from the same members the program reads. They are the calls the models make: the solve depends
on GSL only through its routines at the listed dimensions (`fmatchAccumulateData_congr`), and
`EndCG` stops on a name that fits exactly when a listed `setSplineData` would read past `result`
(`endCG_eq_error_iff_calls`). In a run from `BeginCG` the calls of the solve are all valid
exactly when there is at least one grid point and no more grid points than force rows
(`1 ≤ line_cntr ≤ 3 N N_frames`), and those of `EndCG` exactly when every channel has
`res_output_coeff = 2` or no grid point: `result` holds point values, not coefficients, and with
`res_output_coeff = 1` the call reads past it (`setSplineData_pastEnd`).
-/

namespace Votca

variable {K : Type*}

/-- A call to a routine of GSL or of the spline, with the dimensions of its arguments. -/
inductive Call
  /-- `gsl_vector_alloc(n)` -/
  | vector_alloc (n : ℕ)
  /-- `gsl_linalg_QR_decomp(A, tau)` on a `rows × cols` matrix -/
  | QR_decomp (rows cols tau : ℕ)
  /-- `gsl_linalg_QR_lssolve(QR, tau, b, x, residual)` on a `rows × cols` matrix -/
  | QR_lssolve (rows cols b x residual : ℕ)
  /-- `setSplineData(data)` on a spline of `knots` grid points -/
  | setSplineData (knots len : ℕ)
  deriving DecidableEq, Repr

/-- What each routine requires of the dimensions of its arguments. -/
def Call.Valid : Call → Prop
  | .vector_alloc n => 0 < n
  | .QR_decomp rows cols tau => tau = min rows cols
  | .QR_lssolve rows cols b x residual => cols ≤ rows ∧ b = rows ∧ x = cols ∧ residual = rows
  | .setSplineData knots len => len = 2 * knots

instance : DecidablePred Call.Valid
  | .vector_alloc n => inferInstanceAs (Decidable (0 < n))
  | .QR_decomp rows cols tau => inferInstanceAs (Decidable (tau = min rows cols))
  | .QR_lssolve rows cols b x residual =>
    inferInstanceAs (Decidable (cols ≤ rows ∧ b = rows ∧ x = cols ∧ residual = rows))
  | .setSplineData knots len => inferInstanceAs (Decidable (len = 2 * knots))

/-- The calls of `FmatchAccumulateData()` from state `s`, in order. In constrained mode:
`tau` for `B_constrᵀ`, its factorisation as a `col_cntr × line_cntr` view, `x`, `tau2` and
`residual` for `A2`, which is `_A.size1() × col_cntr / 2`, its factorisation and the solve on
the view of `_b` of length `A2.size1()`; in simple mode: `x`, `tau`, `residual`, the
factorisation of `_A` and the solve; then `setSplineData(block_res)` for every channel. -/
def accumulateCalls (s : CGForceMatching K) : List Call :=
  (if s.ConstrLeastSQ then
    [.vector_alloc s.line_cntr, .QR_decomp s.col_cntr s.line_cntr s.line_cntr,
      .vector_alloc (s.col_cntr / 2), .vector_alloc (s.col_cntr / 2), .vector_alloc s._A.size1,
      .QR_decomp s._A.size1 (s.col_cntr / 2) (s.col_cntr / 2),
      .QR_lssolve s._A.size1 (s.col_cntr / 2) s._A.size1 (s.col_cntr / 2) s._A.size1]
  else
    [.vector_alloc s._A.size2, .vector_alloc s._A.size2, .vector_alloc s._b.size,
      .QR_decomp s._A.size1 s._A.size2 s._A.size2,
      .QR_lssolve s._A.size1 s._A.size2 s._b.size s._A.size2 s._b.size]) ++
  s.Splines.map fun sp => .setSplineData sp.knots sp.block_res.size

/-- The calls of `EndCG()`: `setSplineData(result)` for every channel. -/
def endCGCalls (s : CGForceMatching K) : List Call :=
  s.Splines.map fun sp => .setSplineData sp.knots sp.result.size

/-! ## The calls the models make -/

section Models

variable [Field K]

/-- The unconstrained solve reads GSL's routines only at the shape of `_A`. -/
theorem simpleSolve_congr {lib lib' : Numerics K} (A : UMatrix K) (b x : UVector K)
    (h1 : lib.QR_decomp A.size1 A.size2 = lib'.QR_decomp A.size1 A.size2)
    (h2 : lib.QR_lssolve A.size1 A.size2 = lib'.QR_lssolve A.size1 A.size2) :
    simpleSolve lib A b x = simpleSolve lib' A b x := by
  rw [simpleSolve, simpleSolve, h1, h2]

/-- The constrained solve reads GSL's routines only at the shapes of `B_constrᵀ` and `A2`. -/
theorem constrainedSolve_congr {lib lib' : Numerics K} (A : UMatrix K) (b x : UVector K)
    (B : UMatrix K) (m n : ℕ) (h1 : lib.QR_decomp n m = lib'.QR_decomp n m)
    (h2 : lib.QR_decomp A.size1 (n / 2) = lib'.QR_decomp A.size1 (n / 2))
    (h3 : lib.QR_lssolve A.size1 (n / 2) = lib'.QR_lssolve A.size1 (n / 2)) :
    constrainedSolve lib A b x B m n = constrainedSolve lib' A b x B m n := by
  have hQ : constrQ lib B m n = constrQ lib' B m n := by
    rw [constrQ, constrQ, constrFactor, constrFactor, h1]
  have hX : ∀ A2 : UMatrix K, A2.size1 = A.size1 → A2.size2 = n / 2 →
      constrXfree lib A2 = constrXfree lib' A2 := by
    rintro ⟨r, c, e⟩ rfl rfl
    funext b
    simp only [constrXfree, h2, h3]
  rw [constrainedSolve, constrainedSolve, hQ,
    hX (constrA2 (constrAQ A (constrQ lib' B m n)) n) rfl rfl]

/-- **The solve calls GSL at the listed dimensions only**: two libraries that agree on
`gsl_linalg_QR_decomp` and `gsl_linalg_QR_lssolve` at the dimensions `accumulateCalls` lists
give the same `FmatchAccumulateData`. -/
theorem fmatchAccumulateData_congr {lib lib' : Numerics K} (s : CGForceMatching K)
    (hdecomp : ∀ rows cols tau, Call.QR_decomp rows cols tau ∈ accumulateCalls s →
      lib.QR_decomp rows cols = lib'.QR_decomp rows cols)
    (hsolve : ∀ rows cols b x r, Call.QR_lssolve rows cols b x r ∈ accumulateCalls s →
      lib.QR_lssolve rows cols = lib'.QR_lssolve rows cols) :
    fmatchAccumulateData lib s = fmatchAccumulateData lib' s := by
  have hr : (if s.ConstrLeastSQ then
        constrainedSolve lib s._A s._b s._x s.B_constr s.line_cntr s.col_cntr
      else simpleSolve lib s._A s._b s._x) =
      if s.ConstrLeastSQ then
        constrainedSolve lib' s._A s._b s._x s.B_constr s.line_cntr s.col_cntr
      else simpleSolve lib' s._A s._b s._x := by
    cases hc : s.ConstrLeastSQ
    · exact simpleSolve_congr _ _ _
        (hdecomp s._A.size1 s._A.size2 s._A.size2 (by simp [accumulateCalls, hc]))
        (hsolve s._A.size1 s._A.size2 s._b.size s._A.size2 s._b.size
          (by simp [accumulateCalls, hc]))
    · exact constrainedSolve_congr _ _ _ _ _ _
        (hdecomp s.col_cntr s.line_cntr s.line_cntr (by simp [accumulateCalls, hc]))
        (hdecomp s._A.size1 (s.col_cntr / 2) (s.col_cntr / 2) (by simp [accumulateCalls, hc]))
        (hsolve s._A.size1 (s.col_cntr / 2) s._A.size1 (s.col_cntr / 2) s._A.size1
          (by simp [accumulateCalls, hc]))
  rw [fmatchAccumulateData, fmatchAccumulateData, hr]

/-- **`EndCG` stops at a listed call**: with `BlockNum ≠ 0` and every channel's name fitting
`file_name`, `EndCG` stops exactly when one of the `setSplineData` calls of `endCGCalls` gets
fewer values than its spline reads. -/
theorem endCG_eq_error_iff_calls (lib : Numerics K) {s : CGForceMatching K}
    (hB : s.BlockNum ≠ 0) (hnames : ∀ sp ∈ s.Splines, sp.splineName.utf8ByteSize ≤ 13) :
    (∃ e, endCG lib s = .error e) ↔
      ∃ knots len, Call.setSplineData knots len ∈ endCGCalls s ∧ len < 2 * knots := by
  rw [endCG_eq_error lib hB]
  simp only [endCGCalls, List.mem_map, Call.setSplineData.injEq]
  constructor
  · rintro ⟨sp, hsp, hbad⟩
    have := hnames sp hsp
    exact ⟨sp.knots, sp.result.size, ⟨sp, hsp, rfl, rfl⟩, by omega⟩
  · rintro ⟨knots, len, ⟨sp, hsp, rfl, rfl⟩, hlt⟩
    exact ⟨sp, hsp, .inr hlt⟩

end Models

/-! ## Which runs call with valid dimensions -/

section Run

variable [Field K]

/-- A frame leaves the calls of the coming solve as they were. -/
theorem accumulateCalls_sampleFrame (lib : Numerics K) (s : CGForceMatching K)
    (conf : Topology K) : accumulateCalls (sampleFrame lib s conf) = accumulateCalls s := by
  simp [accumulateCalls]

/-- A grid of four points whose only basis weight is `1`. -/
def fourSpline : CubicSpline K := ⟨4, fun _ => 0, fun _ => [(0, 1)], [], by simp, by simp⟩

/-- **Calls with invalid dimensions.** With `res_output_coeff = 1`, one bonded channel of one
grid point, one bead and blocks of one frame, a run of one frame returns after its block, and
`EndCG` stops at `setSplineData(result)`, which reads two coefficients from the one point value
of `result`. And with a channel of four grid points, one bead and blocks of one frame, simple
least squares solves a `7 × 8` system, with fewer rows than columns. -/
theorem setSplineData_pastEnd :
    (∃ s, run idNumerics (beginCG (⟨1, false, [⟨"bond", "", "", 0, 1, 1, 1⟩], []⟩ : Options ℚ)
        (fun _ _ _ => pointSpline) 1 (fun _ _ => 0) (fun _ => 0)) [quietFrame] = .ok s ∧
      s.BlockNum = 1 ∧ endCG idNumerics s = .error .outOfRange) ∧
    ¬ ∀ c ∈ accumulateCalls (sampleFrame idNumerics (beginCG (oneBond : Options ℚ)
        (fun _ _ _ => fourSpline) 1 (fun _ _ => 0) (fun _ => 0)) quietFrame), c.Valid :=
  ⟨⟨_, rfl, rfl, rfl⟩, by decide⟩

end Run

end Votca
