import Votca.Fmatch.Basic

/-!
# The engine's state and `BeginCG`

`BeginCG` registers one `SplineInfo` per bonded channel, then one per non-bonded channel; each
takes the next free block of columns of the fit matrix. It then sizes `_A`, `_b`, `_x` and, in
constrained mode, `B_constr`, and writes the smoothness rows with
`FmatchAssignSmoothCondsToMatrix`.

Three places compute the same offsets independently: the counters of the registration loops,
the counters `line_tmp`/`col_tmp` of `FmatchAssignSmoothCondsToMatrix`, and the split at half
the columns in the constrained solve. `Layout` names what the registration loops establish —
every block starts where the one before it ends — and the lemmas below derive from it that the
blocks tile the columns and that `FmatchAssignSmoothCondsToMatrix` places every spline's
smoothness rows at half its column offset.

The sizes of `_A` and `_b` are `int` products, `3 * N * N_frames` and
`line_cntr + 3 * N * N_frames`, converted to `size_type`: the model computes them in 32 bits
(`CInt`, `sizeType`), and `RowsFit` names the states where nothing wraps.
-/

namespace Votca

open Finset

variable {K : Type*}

/-! ## Channels -/

/-- `CGForceMatching::SplineInfo`: one interaction channel, its spline and its block
accumulators. -/
structure SplineInfo (K : Type*) where
  /-- `splineIndex` -/
  splineIndex : ℕ
  /-- `splineName` -/
  splineName : String
  /-- `bonded` -/
  bonded : Bool
  /-- `type1` -/
  type1 : String
  /-- `type2` -/
  type2 : String
  /-- `_options`, the channel's option node -/
  _options : ChannelOptions K
  /-- `Spline` -/
  Spline : CubicSpline K
  /-- `n`, one less than the number of grid points -/
  n : ℤ
  /-- `matr_pos`, the first column of the channel's block -/
  matr_pos : ℕ
  /-- `res_output_coeff` -/
  res_output_coeff : ℕ
  /-- `result` -/
  result : UVector K
  /-- `error` -/
  error : UVector K
  /-- `resSum` -/
  resSum : UVector K
  /-- `resSum2` -/
  resSum2 : UVector K
  /-- `block_res` -/
  block_res : UVector K
  /-- `del_x_out` -/
  del_x_out : K

/-- `n + 1`, the number of grid points, which sizes every block of the channel. -/
def SplineInfo.knots (sp : SplineInfo K) : ℕ := (sp.n + 1).toNat

/-! ## The state -/

/-- The members of `CGForceMatching` the force-matching run reads and writes. -/
structure CGForceMatching (K : Type*) where
  /-- `BlockNum`, the blocks solved so far -/
  BlockNum : ℕ
  /-- `line_cntr`, the smoothness rows -/
  line_cntr : ℕ
  /-- `col_cntr`, the spline coefficients -/
  col_cntr : ℕ
  /-- `N_frames`, the frames of a block -/
  N_frames : ℕ
  /-- `ConstrLeastSQ` -/
  ConstrLeastSQ : Bool
  /-- `N`, the beads of the topology -/
  N : ℕ
  /-- `L`, the frame counter within the block -/
  L : ℕ
  /-- `LeastSQOffset`, the first row of the force equations -/
  LeastSQOffset : ℕ
  /-- `_A`, the fit matrix -/
  _A : UMatrix K
  /-- `_b`, the observed forces -/
  _b : UVector K
  /-- `_x`, the solution -/
  _x : UVector K
  /-- `B_constr`, the smoothness conditions in constrained mode -/
  B_constr : UMatrix K
  /-- `Splines` -/
  Splines : List (SplineInfo K)

/-! ## `int` arithmetic

`N`, `N_frames`, `L`, `line_cntr` and `LeastSQOffset` are `int`s. The program computes the rows
it gives `_A` and `_b` and the row of every entry it writes in 32-bit two's complement, and ublas
takes the result as its 64-bit unsigned `size_type`. Nothing checks that the values fit: past
`2^31` they wrap (`intIndex`), and below it they are the values themselves (`intIndex_of_lt`).
-/

/-- A C++ `int`: 32 bits, two's complement. Sums and products of `int`s wrap modulo `2^32`. -/
abbrev CInt := BitVec 32

/-- `size_type(x)`: the 64-bit unsigned value an `int` converts to, its value modulo `2^64`. -/
def sizeType (x : CInt) : ℕ := (x.toInt % 2 ^ 64).toNat

/-- The size or index the program passes for an `int` expression whose exact value is `v`. -/
def intIndex (v : ℕ) : ℕ := sizeType (v : CInt)

/-- **An `int` below `2^31` is its value**: then the index the program passes is exact. -/
theorem intIndex_of_lt {v : ℕ} (h : v < 2 ^ 31) : intIndex v = v := by
  have hmod : (v : ℤ) % ((2 ^ 32 : ℕ) : ℤ) = v := Int.emod_eq_of_lt (by omega) (by push_cast; omega)
  have hcast : (v : CInt) = BitVec.ofNat 32 v := rfl
  rw [intIndex, sizeType, hcast, BitVec.toInt_ofNat, Int.bmod_def, hmod]
  push_cast
  rw [if_pos (by omega), Int.emod_eq_of_lt (by omega) (by omega)]
  simp

/-- The members whose products size and index the fit system: the rows of the force equations
end below `2^31`, so the program computes every row and size of them without wrapping. -/
def RowsFit (s : CGForceMatching K) : Prop := s.LeastSQOffset + 3 * s.N * s.N_frames < 2 ^ 31

instance (s : CGForceMatching K) : Decidable (RowsFit s) :=
  inferInstanceAs (Decidable (_ < _))

/-! ## The column layout -/

/-- The layout the registration loops give the splines: the block of each starts at `pos`,
where the block before it ends. -/
def Layout : List (SplineInfo K) → ℕ → Prop
  | [], _ => True
  | sp :: rest, pos => sp.matr_pos = pos ∧ Layout rest (pos + 2 * sp.knots)

@[simp] theorem layout_nil (pos : ℕ) : Layout ([] : List (SplineInfo K)) pos := trivial

@[simp] theorem layout_cons (sp : SplineInfo K) (rest : List (SplineInfo K)) (pos : ℕ) :
    Layout (sp :: rest) pos ↔ sp.matr_pos = pos ∧ Layout rest (pos + 2 * sp.knots) := Iff.rfl

/-- The grid points of all splines: `line_cntr` once registration is done. -/
def totalKnots (Splines : List (SplineInfo K)) : ℕ := (Splines.map SplineInfo.knots).sum

@[simp] theorem totalKnots_nil : totalKnots ([] : List (SplineInfo K)) = 0 := rfl

@[simp] theorem totalKnots_cons (sp : SplineInfo K) (rest : List (SplineInfo K)) :
    totalKnots (sp :: rest) = sp.knots + totalKnots rest := by
  simp [totalKnots]

@[simp] theorem totalKnots_append (l l' : List (SplineInfo K)) :
    totalKnots (l ++ l') = totalKnots l + totalKnots l' := by
  simp [totalKnots]

theorem layout_append_singleton {Sp : List (SplineInfo K)} {pos : ℕ} (h : Layout Sp pos)
    {sp : SplineInfo K} (hsp : sp.matr_pos = pos + 2 * totalKnots Sp) :
    Layout (Sp ++ [sp]) pos := by
  induction Sp generalizing pos with
  | nil => simpa using hsp
  | cons a rest ih =>
    refine ⟨h.1, ih h.2 ?_⟩
    rw [hsp, totalKnots_cons]
    omega

/-! ## Consequences of the layout -/

section Layout

variable {Splines : List (SplineInfo K)} {pos : ℕ}

/-- Each block lies between `pos` and the end of the layout. -/
theorem Layout.block_le (h : Layout Splines pos) {s : ℕ} (hs : s < Splines.length) :
    pos ≤ Splines[s].matr_pos ∧
      Splines[s].matr_pos + 2 * Splines[s].knots ≤ pos + 2 * totalKnots Splines := by
  induction Splines generalizing pos s with
  | nil => simp at hs
  | cons sp rest ih =>
    cases s with
    | zero => simp [h.1]
    | succ s =>
      have := ih h.2 (s := s) (by simpa using hs)
      simp only [List.getElem_cons_succ, totalKnots_cons]
      omega

/-- An earlier block ends before a later one starts. -/
theorem Layout.block_lt (h : Layout Splines pos) {s t : ℕ} (hst : s < t)
    (ht : t < Splines.length) :
    Splines[s].matr_pos + 2 * Splines[s].knots ≤ Splines[t].matr_pos := by
  induction Splines generalizing pos s t with
  | nil => simp at ht
  | cons sp rest ih =>
    obtain ⟨t, rfl⟩ : ∃ t', t = t' + 1 := ⟨t - 1, by omega⟩
    have ht' : t < rest.length := by simpa using ht
    cases s with
    | zero => simpa [h.1] using (h.2.block_le ht').1
    | succ s => simpa using ih h.2 (by omega) ht'

/-- **The blocks are disjoint**: distinct splines own disjoint column ranges. -/
theorem Layout.disjoint (h : Layout Splines pos) {s t : ℕ} (hs : s < Splines.length)
    (ht : t < Splines.length) (hst : s ≠ t) {c : ℕ}
    (hcs : Splines[s].matr_pos ≤ c ∧ c < Splines[s].matr_pos + 2 * Splines[s].knots) :
    ¬ (Splines[t].matr_pos ≤ c ∧ c < Splines[t].matr_pos + 2 * Splines[t].knots) := by
  rcases Nat.lt_or_gt_of_ne hst with hlt | hlt
  · have := h.block_lt hlt ht
    omega
  · have := h.block_lt hlt hs
    omega

/-- **The blocks tile the columns**: every column of the layout lies in some spline's block. -/
theorem Layout.cover (h : Layout Splines pos) {c : ℕ}
    (hc : pos ≤ c ∧ c < pos + 2 * totalKnots Splines) :
    ∃ s, ∃ hs : s < Splines.length,
      Splines[s].matr_pos ≤ c ∧ c < Splines[s].matr_pos + 2 * Splines[s].knots := by
  induction Splines generalizing pos with
  | nil => simp at hc; omega
  | cons sp rest ih =>
    by_cases hin : c < pos + 2 * sp.knots
    · exact ⟨0, by simp, by simp [h.1]; omega⟩
    · obtain ⟨s, hs, hcs⟩ := ih h.2 (by simp at hc; omega)
      exact ⟨s + 1, by simpa using hs, by simpa using hcs⟩

/-- Under the layout, `matr_pos` is twice the grid points of the splines before. -/
theorem Layout.matr_pos_eq (h : Layout Splines pos) {s : ℕ} (hs : s < Splines.length) :
    Splines[s].matr_pos = pos + 2 * totalKnots (Splines.take s) := by
  induction Splines generalizing pos s with
  | nil => simp at hs
  | cons sp rest ih =>
    cases s with
    | zero => simp [h.1]
    | succ s =>
      simp only [List.getElem_cons_succ, List.take_succ_cons, totalKnots_cons]
      rw [ih h.2 (by simpa using hs)]
      omega

/-- The loop of `FmatchAssignSmoothCondsToMatrix`, from any matrix and counters that follow
the layout. -/
theorem smoothConds_foldl (h : Layout Splines (2 * pos)) (M : UMatrix K) :
    (Splines.foldl (fun (acc : UMatrix K × ℕ × ℕ) sp =>
        (sp.Spline.addBCToFitMatrix acc.1 acc.2.1 acc.2.2, acc.2.1 + sp.knots,
          acc.2.2 + 2 * sp.knots)) (M, pos, 2 * pos)).1 =
      Splines.foldl (fun M sp => sp.Spline.addBCToFitMatrix M (sp.matr_pos / 2) sp.matr_pos)
        M := by
  induction Splines generalizing M pos with
  | nil => rfl
  | cons sp rest ih =>
    have hcol : 2 * pos + 2 * sp.knots = 2 * (pos + sp.knots) := by omega
    have hrest : Layout rest (2 * (pos + sp.knots)) := hcol ▸ h.2
    simp only [List.foldl_cons, h.1, hcol, Nat.mul_div_cancel_left pos two_pos]
    exact ih hrest _

end Layout

/-! ## Registration -/

section Registration

variable [Field K]

namespace SplineInfo

/-- The constructor `SplineInfo(index, bonded_, matr_pos_, options)`, with `GenerateGrid`
building the spline from `fmatch.min`, `fmatch.max` and `fmatch.step`. `block_res` is sized by
`resize (…, false)`; its contents are never read before `FmatchAccumulateData` overwrites all
of them, so the model starts it at zero. -/
def new (GenerateGrid : K → K → K → CubicSpline K) (index : ℕ) (bonded_ : Bool)
    (matr_pos_ : ℕ) (options : ChannelOptions K) : SplineInfo K :=
  let Spline := GenerateGrid options.min options.max options.step
  let n : ℤ := Spline.size - 1
  let res_output_coeff := options.res_output_coeff
  { splineIndex := index
    splineName := options.name
    bonded := bonded_
    type1 := if bonded_ then "" else options.type1
    type2 := if bonded_ then "" else options.type2
    _options := options
    Spline := Spline
    n := n
    matr_pos := matr_pos_
    res_output_coeff := res_output_coeff
    result := UVector.zero (res_output_coeff * (n + 1).toNat)
    error := UVector.zero (res_output_coeff * (n + 1).toNat)
    resSum := UVector.zero (res_output_coeff * (n + 1).toNat)
    resSum2 := UVector.zero (res_output_coeff * (n + 1).toNat)
    block_res := UVector.zero (2 * (n + 1).toNat)
    del_x_out := (Spline.getGridPoint n.toNat - Spline.getGridPoint 0) /
      ((res_output_coeff : K) * ((n + 1 : ℤ) : K)) }

@[simp] theorem new_knots (G : K → K → K → CubicSpline K) (i : ℕ) (b : Bool) (p : ℕ)
    (o : ChannelOptions K) : (new G i b p o).knots = (G o.min o.max o.step).size := by
  simp [new, knots]

@[simp] theorem new_matr_pos (G : K → K → K → CubicSpline K) (i : ℕ) (b : Bool) (p : ℕ)
    (o : ChannelOptions K) : (new G i b p o).matr_pos = p := rfl

@[simp] theorem new_bonded (G : K → K → K → CubicSpline K) (i : ℕ) (b : Bool) (p : ℕ)
    (o : ChannelOptions K) : (new G i b p o).bonded = b := rfl

end SplineInfo

/-- One turn of a registration loop of `BeginCG`: a `SplineInfo` at the current column count
joins `Splines`, and `line_cntr`, `col_cntr` grow by its size. -/
def registerSpline (GenerateGrid : K → K → K → CubicSpline K) (bonded : Bool)
    (acc : List (SplineInfo K) × ℕ × ℕ) (o : ChannelOptions K) :
    List (SplineInfo K) × ℕ × ℕ :=
  let i := SplineInfo.new GenerateGrid acc.1.length bonded acc.2.2 o
  (acc.1 ++ [i], acc.2.1 + i.knots, acc.2.2 + 2 * i.knots)

/-- `FmatchAssignSmoothCondsToMatrix(Matrix)`: clear, then let every spline write its
smoothness rows at the running offsets `line_tmp`, `col_tmp`. -/
def fmatchAssignSmoothCondsToMatrix (Splines : List (SplineInfo K)) (Matrix : UMatrix K) :
    UMatrix K :=
  (Splines.foldl (fun (acc : UMatrix K × ℕ × ℕ) sp =>
      (sp.Spline.addBCToFitMatrix acc.1 acc.2.1 acc.2.2, acc.2.1 + sp.knots,
        acc.2.2 + 2 * sp.knots))
    (Matrix.clear, 0, 0)).1

/-- The registration loops of `BeginCG`: bonded channels first, then non-bonded ones. -/
def registerAll (GenerateGrid : K → K → K → CubicSpline K) (opts : Options K) :
    List (SplineInfo K) × ℕ × ℕ :=
  opts.nonbonded.foldl (registerSpline GenerateGrid false)
    (opts.bonded.foldl (registerSpline GenerateGrid true) ([], 0, 0))

/-- `BeginCG(top, top_atom)` for a topology of `BeadCount` beads. `staleA` and `staleb` are
what the storage handed out by `resize (…, false)` holds; the unconstrained branch clears it,
the constrained branch does not. The rows of `_A` and `_b` are `int` expressions. -/
def beginCG (opts : Options K) (GenerateGrid : K → K → K → CubicSpline K) (BeadCount : ℕ)
    (staleA : ℕ → ℕ → K) (staleb : ℕ → K) : CGForceMatching K :=
  let reg := registerAll GenerateGrid opts
  let Splines := reg.1
  let line_cntr := reg.2.1
  let col_cntr := reg.2.2
  let N := BeadCount
  let N_frames := opts.frames_per_block
  if opts.constrainedLS then
    { BlockNum := 0, line_cntr, col_cntr, N_frames, ConstrLeastSQ := true, N, L := 0
      LeastSQOffset := 0
      _A := UMatrix.resize (sizeType (3 * (N : CInt) * N_frames)) col_cntr staleA
      _b := UVector.resize (sizeType (3 * (N : CInt) * N_frames)) staleb
      _x := UVector.zero col_cntr
      B_constr := fmatchAssignSmoothCondsToMatrix Splines (UMatrix.zero line_cntr col_cntr)
      Splines }
  else
    { BlockNum := 0, line_cntr, col_cntr, N_frames, ConstrLeastSQ := false, N, L := 0
      LeastSQOffset := line_cntr
      _A := fmatchAssignSmoothCondsToMatrix Splines
        (UMatrix.resize (sizeType ((line_cntr : CInt) + 3 * (N : CInt) * N_frames)) col_cntr staleA)
      _b := (UVector.resize (sizeType ((line_cntr : CInt) + 3 * (N : CInt) * N_frames)) staleb).clear
      _x := UVector.zero col_cntr
      B_constr := UMatrix.zero 0 0
      Splines }

section Fields

variable (opts : Options K) (G : K → K → K → CubicSpline K) (BeadCount : ℕ)
  (staleA : ℕ → ℕ → K) (staleb : ℕ → K)

@[simp] theorem beginCG_L : (beginCG opts G BeadCount staleA staleb).L = 0 := by
  unfold beginCG; split <;> rfl
@[simp] theorem beginCG_BlockNum : (beginCG opts G BeadCount staleA staleb).BlockNum = 0 := by
  unfold beginCG; split <;> rfl
@[simp] theorem beginCG_N : (beginCG opts G BeadCount staleA staleb).N = BeadCount := by
  unfold beginCG; split <;> rfl
@[simp] theorem beginCG_N_frames :
    (beginCG opts G BeadCount staleA staleb).N_frames = opts.frames_per_block := by
  unfold beginCG; split <;> rfl
@[simp] theorem beginCG_ConstrLeastSQ :
    (beginCG opts G BeadCount staleA staleb).ConstrLeastSQ = opts.constrainedLS := by
  unfold beginCG; split <;> simp_all
@[simp] theorem beginCG_Splines :
    (beginCG opts G BeadCount staleA staleb).Splines = (registerAll G opts).1 := by
  unfold beginCG; split <;> rfl

end Fields

/-- What the registration loops keep: the counters are the size of the splines so far, and
the splines are laid out from column `0`. -/
def Registered (acc : List (SplineInfo K) × ℕ × ℕ) : Prop :=
  Layout acc.1 0 ∧ acc.2.1 = totalKnots acc.1 ∧ acc.2.2 = 2 * acc.2.1

theorem registered_registerSpline (G : K → K → K → CubicSpline K) (b : Bool)
    {acc : List (SplineInfo K) × ℕ × ℕ} (h : Registered acc) (o : ChannelOptions K) :
    Registered (registerSpline G b acc o) := by
  obtain ⟨hl, h1, h2⟩ := h
  refine ⟨layout_append_singleton hl ?_, ?_, ?_⟩
  · simp [h2, h1]
  · simp [registerSpline, h1, Nat.add_comm]
  · simp only [registerSpline]
    omega

theorem registered_foldl (G : K → K → K → CubicSpline K) (b : Bool)
    (os : List (ChannelOptions K)) {acc : List (SplineInfo K) × ℕ × ℕ} (h : Registered acc) :
    Registered (os.foldl (registerSpline G b) acc) := by
  induction os generalizing acc with
  | nil => exact h
  | cons o os ih => exact ih (registered_registerSpline G b h o)

/-- **Registration lays the blocks out**: after both loops of `BeginCG`, every spline's block
starts where the one before it ends, `line_cntr` counts all grid points and
`col_cntr = 2 * line_cntr`. -/
theorem registered_registerAll (G : K → K → K → CubicSpline K) (opts : Options K) :
    Registered (registerAll G opts) :=
  registered_foldl _ _ _ (registered_foldl _ _ _ ⟨trivial, rfl, rfl⟩)

/-- The registration loops append one spline per option, in order. -/
theorem registerSpline_foldl_fst (G : K → K → K → CubicSpline K) (b : Bool)
    (os : List (ChannelOptions K)) (acc : List (SplineInfo K) × ℕ × ℕ) :
    ((os.foldl (registerSpline G b) acc).1.map fun sp => (sp.knots, sp.bonded)) =
      acc.1.map (fun sp => (sp.knots, sp.bonded)) ++
        os.map fun o => ((G o.min o.max o.step).size, b) := by
  induction os generalizing acc with
  | nil => simp
  | cons o os ih => simp [ih, registerSpline]

/-- `BeginCG` registers one spline per option, bonded ones first, each with the grid points
`GenerateGrid` gave it. -/
theorem registerAll_fst (G : K → K → K → CubicSpline K) (opts : Options K) :
    (registerAll G opts).1.map (fun sp => (sp.knots, sp.bonded)) =
      opts.bonded.map (fun o => ((G o.min o.max o.step).size, true)) ++
        opts.nonbonded.map fun o => ((G o.min o.max o.step).size, false) := by
  simp [registerAll, registerSpline_foldl_fst]

/-- Every spline the registration loops append is built by the constructor. -/
theorem mem_registerSpline_foldl (G : K → K → K → CubicSpline K) (b : Bool)
    (os : List (ChannelOptions K)) {acc : List (SplineInfo K) × ℕ × ℕ}
    (h : ∀ sp ∈ acc.1, ∃ i b p o, sp = SplineInfo.new G i b p o) :
    ∀ sp ∈ (os.foldl (registerSpline G b) acc).1, ∃ i b p o, sp = SplineInfo.new G i b p o := by
  induction os generalizing acc with
  | nil => exact h
  | cons o os ih =>
    refine ih fun sp hsp => ?_
    simp only [registerSpline, List.mem_append, List.mem_singleton] at hsp
    rcases hsp with hsp | rfl
    exacts [h sp hsp, ⟨_, _, _, _, rfl⟩]

/-- **Every registered spline is sized by its grid**: `n + 1` is the grid size of its spline,
`block_res` has `2(n + 1)` entries and `result` has `res_output_coeff (n + 1)`. -/
theorem registerAll_sizes (G : K → K → K → CubicSpline K) (opts : Options K) :
    ∀ sp ∈ (registerAll G opts).1, sp.knots = sp.Spline.size ∧
      sp.block_res.size = 2 * sp.knots ∧ sp.result.size = sp.res_output_coeff * sp.knots := by
  intro sp hsp
  obtain ⟨i, b, p, o, rfl⟩ := mem_registerSpline_foldl G false _
    (mem_registerSpline_foldl G true _ (by simp)) sp hsp
  exact ⟨SplineInfo.new_knots G i b p o, rfl, rfl⟩

/-- Every registered spline starts its statistics at zero. -/
theorem registerAll_resSum (G : K → K → K → CubicSpline K) (opts : Options K) :
    ∀ sp ∈ (registerAll G opts).1, ∀ i, sp.resSum.entry i = 0 ∧ sp.resSum2.entry i = 0 := by
  intro sp hsp i
  obtain ⟨_, _, _, _, rfl⟩ := mem_registerSpline_foldl G false _
    (mem_registerSpline_foldl G true _ (by simp)) sp hsp
  exact ⟨rfl, rfl⟩

/-- **Where the smoothness rows go**: under the layout from column `0`,
`FmatchAssignSmoothCondsToMatrix` writes spline `s`'s rows at row `matr_pos / 2` and column
`matr_pos`, exactly the offsets of its block. -/
theorem fmatchAssignSmoothCondsToMatrix_eq {Splines : List (SplineInfo K)} (h : Layout Splines 0) (M : UMatrix K) :
    fmatchAssignSmoothCondsToMatrix Splines M =
      Splines.foldl (fun M sp => sp.Spline.addBCToFitMatrix M (sp.matr_pos / 2) sp.matr_pos)
        M.clear :=
  smoothConds_foldl (h : Layout Splines (2 * 0)) M.clear

@[simp] theorem fmatchAssignSmoothCondsToMatrix_size1 (Splines : List (SplineInfo K))
    (M : UMatrix K) : (fmatchAssignSmoothCondsToMatrix Splines M).size1 = M.size1 := by
  simp only [fmatchAssignSmoothCondsToMatrix]
  suffices ∀ acc : UMatrix K × ℕ × ℕ, (Splines.foldl (fun (acc : UMatrix K × ℕ × ℕ) sp =>
      (sp.Spline.addBCToFitMatrix acc.1 acc.2.1 acc.2.2, acc.2.1 + sp.knots,
        acc.2.2 + 2 * sp.knots)) acc).1.size1 = acc.1.size1 from this _
  induction Splines with
  | nil => intro; rfl
  | cons sp rest ih => intro acc; simp [ih]

@[simp] theorem fmatchAssignSmoothCondsToMatrix_size2 (Splines : List (SplineInfo K))
    (M : UMatrix K) : (fmatchAssignSmoothCondsToMatrix Splines M).size2 = M.size2 := by
  simp only [fmatchAssignSmoothCondsToMatrix]
  suffices ∀ acc : UMatrix K × ℕ × ℕ, (Splines.foldl (fun (acc : UMatrix K × ℕ × ℕ) sp =>
      (sp.Spline.addBCToFitMatrix acc.1 acc.2.1 acc.2.2, acc.2.1 + sp.knots,
        acc.2.2 + 2 * sp.knots)) acc).1.size2 = acc.1.size2 from this _
  induction Splines with
  | nil => intro; rfl
  | cons sp rest ih => intro acc; simp [ih]

/-- **The smoothness rows end at `line_cntr`**: under the layout from column `0`, with every
spline's grid of `knots` points, `FmatchAssignSmoothCondsToMatrix` leaves every row from
`Σ knots` on zero. -/
theorem fmatchAssignSmoothCondsToMatrix_entry_of_le {Splines : List (SplineInfo K)}
    (h : Layout Splines 0) (hsize : ∀ sp ∈ Splines, sp.knots = sp.Spline.size) (M : UMatrix K)
    {r : ℕ} (hr : totalKnots Splines ≤ r) (col : ℕ) :
    (fmatchAssignSmoothCondsToMatrix Splines M).entry r col = 0 := by
  have hle : ∀ sp ∈ Splines, sp.matr_pos / 2 + sp.Spline.size ≤ r := by
    intro sp hsp
    obtain ⟨i, hi, rfl⟩ := List.mem_iff_getElem.1 hsp
    have := (h.block_le hi).2
    rw [← hsize _ hsp]
    omega
  rw [fmatchAssignSmoothCondsToMatrix_eq h]
  suffices ∀ (l : List (SplineInfo K)) (M' : UMatrix K),
      (∀ sp ∈ l, sp.matr_pos / 2 + sp.Spline.size ≤ r) →
      (l.foldl (fun M sp => sp.Spline.addBCToFitMatrix M (sp.matr_pos / 2) sp.matr_pos)
        M').entry r col = M'.entry r col from this Splines M.clear hle
  intro l
  induction l with
  | nil => intros; rfl
  | cons sp l ih =>
    intro M' hl
    simp only [List.mem_cons, forall_eq_or_imp] at hl
    rw [List.foldl_cons, ih _ hl.2, sp.Spline.addBCToFitMatrix_entry_of_le _ _ hl.1]

end Registration

end Votca
