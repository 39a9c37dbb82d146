import Votca.Fmatch.Reachable

/-!
# `EndCG`: the force files

`EndCG` writes one file `<splineName>.force` per channel: a header with the channel's index,
then one line per output point with `out_x`, `-result[i]` and `error[i]`, where
`result[i] = resSum[i] / BlockNum` and `error[i] = sqrt(resSum2[i] / BlockNum - result[i]²)`.

Three things can go wrong, and the model stops at each with a `Fault`. The file name is built
in `char file_name[20]` by `strcpy` and `strcat`, so a name of more than 13 bytes writes past
the buffer (`bufferOverflow`). With `BlockNum = 0` every output point divides by zero
(`divisionByZero`); the program then writes `inf` or `nan`. And `setSplineData(result)` loads
the `2 (n + 1)` coefficients of a spline from `result`, which holds `res_output_coeff (n + 1)`
point values: when that is fewer, the call reads past the vector (`outOfRange`).

Proof shape: `foldlM_endCGPoint` runs the output loop once `BlockNum ≠ 0`; `endCGSpline_ok`,
`endCGSpline_file` and `endCGSpline_eq_error` say what one channel writes and what stops it; and
`endCG_ok`, `endCG_files` and `endCG_eq_error` read the channel list through `mapM_ok` and
`mapM_error`.
-/

namespace Votca

variable {K : Type*}

/-- One line of a `.force` file: `out_x`, `(-1.0) * result[i]`, `error[i]`. -/
structure ForceLine (K : Type*) where
  /-- the output grid point -/
  out_x : K
  /-- the mean force, negated -/
  force : K
  /-- its error -/
  error : K

/-- A `.force` file. -/
structure ForceFile (K : Type*) where
  /-- `file_name` -/
  file_name : String
  /-- the index in the header `# interaction No. ` -/
  splineIndex : ℕ
  /-- the lines after the header -/
  lines : List (ForceLine K)

/-- `force_raw`, the suffix of every force file. -/
def force_raw : String := ".force"

/-- `strcpy(file_name, splineName); strcat(file_name, force_raw)` into `char file_name[20]`:
the name, the suffix and the terminating zero must fit in 20 bytes. -/
def forceFileName (splineName : String) : Except Fault String :=
  if splineName.utf8ByteSize + force_raw.utf8ByteSize + 1 ≤ 20 then .ok (splineName ++ force_raw)
  else .error .bufferOverflow

/-- **The file name buffer**: `EndCG` writes past `file_name` exactly when the channel's name
has more than 13 bytes. -/
theorem forceFileName_eq_error (splineName : String) :
    (∃ e, forceFileName splineName = .error e) ↔ 13 < splineName.utf8ByteSize := by
  have h6 : force_raw.utf8ByteSize = 6 := by decide
  unfold forceFileName
  split_ifs with h <;> simp <;> omega

section EndCG

variable [Field K]

/-- The lines of the file, from `out_x = getGridPoint(0)` stepping by `del_x_out`. -/
def forceLines (del_x_out : K) (result error : UVector K) : K → List ℕ → List (ForceLine K)
  | _, [] => []
  | out_x, i :: is =>
    ⟨out_x, -1 * result.entry i, error.entry i⟩ :: forceLines del_x_out result error (out_x + del_x_out) is

/-- One turn of the output loop: `result[i] = resSum[i] / BlockNum`, then
`error[i] = sqrt(resSum2[i] / BlockNum - result[i] * result[i])`. -/
def endCGPoint (lib : Numerics K) (BlockNum : ℕ) (sp : SplineInfo K)
    (acc : UVector K × UVector K) (i : ℕ) : Except Fault (UVector K × UVector K) :=
  if BlockNum = 0 then .error .divisionByZero
  else
    let result := acc.1.set i (sp.resSum.entry i / BlockNum)
    .ok (result,
      acc.2.set i (lib.sqrt (sp.resSum2.entry i / BlockNum - result.entry i * result.entry i)))

/-- `Spline.setSplineData(data)` on a spline of `knots` grid points: it loads the `2 knots`
coefficients `data[0, 2 knots)`, and reads past the end of a shorter vector. -/
def setSplineData (knots : ℕ) (data : UVector K) : Except Fault Unit :=
  if 2 * knots ≤ data.size then .ok () else .error .outOfRange

/-- `EndCG` for one channel: the file name, the output loop, `setSplineData(result)` (whose
loaded data nothing reads afterwards), and the lines. -/
def endCGSpline (lib : Numerics K) (BlockNum : ℕ) (sp : SplineInfo K) :
    Except Fault (SplineInfo K × ForceFile K) :=
  match forceFileName sp.splineName with
  | .error e => .error e
  | .ok file_name =>
    let pts := List.range (sp.res_output_coeff * sp.knots)
    (pts.foldlM (endCGPoint lib BlockNum sp) (sp.result, sp.error)).bind fun r =>
      (setSplineData sp.knots r.1).map fun _ => ({ sp with result := r.1, error := r.2 },
        ⟨file_name, sp.splineIndex, forceLines sp.del_x_out r.1 r.2 (sp.Spline.getGridPoint 0) pts⟩)

/-- `EndCG()`: one force file per channel, in order. -/
def endCG (lib : Numerics K) (s : CGForceMatching K) :
    Except Fault (CGForceMatching K × List (ForceFile K)) := do
  let r ← s.Splines.mapM (endCGSpline lib s.BlockNum)
  pure ({ s with Splines := r.map Prod.fst }, r.map Prod.snd)

/-! ## The output loop -/

section Loop

variable (lib : Numerics K) (B : ℕ) (sp : SplineInfo K)

/-- What the output loop writes at point `i` once `BlockNum = B ≠ 0`: the mean and the error. -/
def pointValues (i : ℕ) : K × K :=
  (sp.resSum.entry i / B,
    lib.sqrt (sp.resSum2.entry i / B - sp.resSum.entry i / B * (sp.resSum.entry i / B)))

/-- With `BlockNum ≠ 0` the output loop runs to its end and makes its assignments. -/
theorem foldlM_endCGPoint (hB : B ≠ 0) (pts : List ℕ) (acc : UVector K × UVector K) :
    pts.foldlM (endCGPoint lib B sp) acc = .ok (pts.foldl (fun acc i =>
      (acc.1.set i (pointValues lib B sp i).1, acc.2.set i (pointValues lib B sp i).2)) acc) := by
  induction pts generalizing acc with
  | nil => rfl
  | cons i is ih =>
    simp only [List.foldlM_cons, endCGPoint, if_neg hB, UVector.set_entry, if_pos rfl]
    exact ih _

/-- After the output loop, a visited point holds its mean and its error. -/
theorem foldl_pointValues_entry (pts : List ℕ) (acc : UVector K × UVector K) (j : ℕ) :
    (pts.foldl (fun acc i => (acc.1.set i (pointValues lib B sp i).1,
        acc.2.set i (pointValues lib B sp i).2)) acc).1.entry j =
      (if j ∈ pts then (pointValues lib B sp j).1 else acc.1.entry j) ∧
    (pts.foldl (fun acc i => (acc.1.set i (pointValues lib B sp i).1,
        acc.2.set i (pointValues lib B sp i).2)) acc).2.entry j =
      (if j ∈ pts then (pointValues lib B sp j).2 else acc.2.entry j) := by
  induction pts generalizing acc with
  | nil => simp
  | cons i is ih =>
    rw [List.foldl_cons, (ih _).1, (ih _).2]
    by_cases hj : j ∈ is
    · simp [hj]
    · by_cases hji : j = i <;> simp [hj, hji]

/-- The output loop keeps the size of `result`. -/
@[simp] theorem foldl_pointValues_size (pts : List ℕ) (acc : UVector K × UVector K) :
    (pts.foldl (fun acc i => (acc.1.set i (pointValues lib B sp i).1,
        acc.2.set i (pointValues lib B sp i).2)) acc).1.size = acc.1.size := by
  induction pts generalizing acc with
  | nil => rfl
  | cons i is ih => rw [List.foldl_cons, ih, UVector.set_size]

/-- `result` and `error` after the output loop of a channel, once `BlockNum = B ≠ 0`. -/
def outputLoop : UVector K × UVector K :=
  (List.range (sp.res_output_coeff * sp.knots)).foldl (fun acc i =>
    (acc.1.set i (pointValues lib B sp i).1, acc.2.set i (pointValues lib B sp i).2))
    (sp.result, sp.error)

/-- At every output point the loop leaves the mean and the error. -/
theorem outputLoop_entry {i : ℕ} (hi : i < sp.res_output_coeff * sp.knots) :
    (outputLoop lib B sp).1.entry i = (pointValues lib B sp i).1 ∧
      (outputLoop lib B sp).2.entry i = (pointValues lib B sp i).2 := by
  simpa [outputLoop, hi] using
    foldl_pointValues_entry lib B sp (List.range (sp.res_output_coeff * sp.knots)) (sp.result, sp.error) i

/-- A name too long for `file_name` stops the channel before anything else. -/
theorem endCGSpline_of_name_error {e : Fault} (h : forceFileName sp.splineName = .error e) :
    endCGSpline lib B sp = .error e := by
  rw [endCGSpline, h]

/-- **One channel once a block is solved**: with `BlockNum ≠ 0` and a name that fits, the
output loop runs to its end, and `setSplineData(result)` stops the channel exactly when `result`
has fewer than `2 (n + 1)` entries; otherwise the channel writes its file. -/
theorem endCGSpline_of_ne_zero (hB : B ≠ 0) {file_name : String}
    (h : forceFileName sp.splineName = .ok file_name) :
    endCGSpline lib B sp =
      if 2 * sp.knots ≤ sp.result.size then
        .ok ({ sp with result := (outputLoop lib B sp).1, error := (outputLoop lib B sp).2 },
          ⟨file_name, sp.splineIndex, forceLines sp.del_x_out (outputLoop lib B sp).1
            (outputLoop lib B sp).2 (sp.Spline.getGridPoint 0)
            (List.range (sp.res_output_coeff * sp.knots))⟩)
      else .error .outOfRange := by
  have hsize : (outputLoop lib B sp).1.size = sp.result.size := foldl_pointValues_size ..
  rw [endCGSpline, h]
  simp only [foldlM_endCGPoint lib B sp hB, Except.bind, setSplineData]
  rw [← outputLoop, hsize]
  split_ifs <;> rfl

/-- **What stops one channel once a block is solved**: with `BlockNum ≠ 0`, a name of more than
13 bytes, or a `result` shorter than the `2 (n + 1)` values `setSplineData` reads. -/
theorem endCGSpline_eq_error (hB : B ≠ 0) :
    (∃ e, endCGSpline lib B sp = .error e) ↔
      13 < sp.splineName.utf8ByteSize ∨ sp.result.size < 2 * sp.knots := by
  rw [← forceFileName_eq_error]
  cases hname : forceFileName sp.splineName with
  | error e => simp [endCGSpline_of_name_error lib B sp hname]
  | ok name =>
    rw [endCGSpline_of_ne_zero lib B sp hB hname]
    split_ifs with hlen <;> simp <;> omega

/-- A division by zero stops a channel only when no block was solved. -/
theorem endCGSpline_divisionByZero (h : endCGSpline lib B sp = .error .divisionByZero) :
    B = 0 := by
  by_contra hB
  cases hname : forceFileName sp.splineName with
  | error e =>
    rw [endCGSpline_of_name_error lib B sp hname] at h
    unfold forceFileName at hname
    split_ifs at hname
    cases hname
    cases h
  | ok name =>
    rw [endCGSpline_of_ne_zero lib B sp hB hname] at h
    split_ifs at h
    cases h

/-- **One channel's values**: with `BlockNum ≠ 0`, a channel that `EndCG` writes has at every
output point `result = resSum / BlockNum` and
`error = sqrt(resSum2 / BlockNum - result²)`. -/
theorem endCGSpline_ok (hB : B ≠ 0) {sp' : SplineInfo K} {file : ForceFile K}
    (h : endCGSpline lib B sp = .ok (sp', file)) {i : ℕ}
    (hi : i < sp.res_output_coeff * sp.knots) :
    sp'.result.entry i = (pointValues lib B sp i).1 ∧
      sp'.error.entry i = (pointValues lib B sp i).2 := by
  cases hname : forceFileName sp.splineName with
  | error e => rw [endCGSpline_of_name_error lib B sp hname] at h; cases h
  | ok name =>
    rw [endCGSpline_of_ne_zero lib B sp hB hname] at h
    split_ifs at h
    cases h
    exact outputLoop_entry lib B sp hi

/-- **One channel's file**: `<splineName>.force`, the channel's index, and one line per output
point. -/
theorem endCGSpline_file (hB : B ≠ 0) {sp' : SplineInfo K} {file : ForceFile K}
    (h : endCGSpline lib B sp = .ok (sp', file)) :
    file.file_name = sp.splineName ++ force_raw ∧ file.splineIndex = sp.splineIndex ∧
      file.lines = forceLines sp.del_x_out sp'.result sp'.error (sp.Spline.getGridPoint 0)
        (List.range (sp.res_output_coeff * sp.knots)) := by
  cases hname : forceFileName sp.splineName with
  | error e => rw [endCGSpline_of_name_error lib B sp hname] at h; cases h
  | ok name =>
    rw [endCGSpline_of_ne_zero lib B sp hB hname] at h
    split_ifs at h
    cases h
    unfold forceFileName at hname
    split_ifs at hname
    cases hname
    exact ⟨rfl, rfl, rfl⟩

end Loop

theorem forceLines_length (d : K) (result error : UVector K) (out_x : K) (pts : List ℕ) :
    (forceLines d result error out_x pts).length = pts.length := by
  induction pts generalizing out_x with
  | nil => rfl
  | cons i is ih => simp [forceLines, ih]

/-- The `k`-th line of a file: `out_x + k del_x_out`, the negated result and the error of the
`k`-th point. -/
theorem forceLines_getElem? (d : K) (result error : UVector K) (out_x : K) (pts : List ℕ)
    {k : ℕ} (hk : k < pts.length) :
    (forceLines d result error out_x pts)[k]? =
      some ⟨out_x + k * d, -1 * result.entry pts[k], error.entry pts[k]⟩ := by
  induction pts generalizing out_x k with
  | nil => simp at hk
  | cons i is ih =>
    cases k with
    | zero => simp [forceLines]
    | succ k =>
      rw [forceLines, List.getElem?_cons_succ, ih (out_x + d) (by simpa using hk),
        List.getElem_cons_succ]
      push_cast
      ring_nf

/-! ## All channels -/

theorem mapM_error {α β ε : Type*} {f : α → Except ε β} {l : List α} {e : ε}
    (h : l.mapM f = .error e) : ∃ a ∈ l, f a = .error e := by
  induction l with
  | nil => cases h
  | cons a l ih =>
    rw [List.mapM_cons] at h
    cases ha : f a with
    | error e' =>
      rw [ha] at h
      cases h
      exact ⟨a, by simp, ha⟩
    | ok b =>
      rw [ha] at h
      cases hl : l.mapM f with
      | error e' =>
        rw [hl] at h
        cases h
        obtain ⟨x, hx, hfx⟩ := ih hl
        exact ⟨x, by simp [hx], hfx⟩
      | ok bs =>
        rw [hl] at h
        cases h

theorem mapM_eq_error_of_mem {α β ε : Type*} {f : α → Except ε β} {l : List α} {a : α} {e : ε}
    (ha : a ∈ l) (hfa : f a = .error e) : ∃ e', l.mapM f = .error e' := by
  induction l with
  | nil => cases ha
  | cons b l ih =>
    rw [List.mapM_cons]
    cases hb : f b with
    | error e' => exact ⟨e', rfl⟩
    | ok y =>
      obtain rfl | ha := List.mem_cons.1 ha
      · rw [hfa] at hb
        cases hb
      · obtain ⟨e', he'⟩ := ih ha
        exact ⟨e', by rw [he']; rfl⟩

theorem mapM_ok {α β ε : Type*} {f : α → Except ε β} {l : List α} {r : List β}
    (h : l.mapM f = .ok r) : List.Forall₂ (fun a b => f a = .ok b) l r := by
  induction l generalizing r with
  | nil => cases h; exact .nil
  | cons a l ih =>
    rw [List.mapM_cons] at h
    cases ha : f a with
    | error e' => rw [ha] at h; cases h
    | ok b =>
      rw [ha] at h
      cases hl : l.mapM f with
      | error e' => rw [hl] at h; cases h
      | ok bs =>
        rw [hl] at h
        cases h
        exact .cons ha (ih hl)

/-- **`EndCG` divides by zero only when no block was solved**: with `BlockNum ≠ 0`, what can
stop it is a file name too long for its buffer or a short `result`. -/
theorem endCG_ne_divisionByZero (lib : Numerics K) {s : CGForceMatching K}
    (hB : s.BlockNum ≠ 0) : endCG lib s ≠ .error .divisionByZero := by
  intro h
  unfold endCG at h
  cases hr : s.Splines.mapM (endCGSpline lib s.BlockNum) with
  | ok r => rw [hr] at h; cases h
  | error e =>
    rw [hr] at h
    cases h
    obtain ⟨sp, -, hsp⟩ := mapM_error hr
    exact hB (endCGSpline_divisionByZero lib _ sp hsp)

/-- **What stops `EndCG`**: with `BlockNum ≠ 0`, `EndCG` stops exactly when some channel's name
has more than 13 bytes, and so overflows `char file_name[20]`, or some channel's `result` has
fewer than the `2 (n + 1)` values `setSplineData(result)` reads. -/
theorem endCG_eq_error (lib : Numerics K) {s : CGForceMatching K} (hB : s.BlockNum ≠ 0) :
    (∃ e, endCG lib s = .error e) ↔
      ∃ sp ∈ s.Splines, 13 < sp.splineName.utf8ByteSize ∨ sp.result.size < 2 * sp.knots := by
  have hmap : (∃ e, endCG lib s = .error e) ↔
      ∃ e, s.Splines.mapM (endCGSpline lib s.BlockNum) = .error e := by
    unfold endCG
    cases s.Splines.mapM (endCGSpline lib s.BlockNum) with
    | error e => exact Iff.intro (fun _ => ⟨e, rfl⟩) (fun _ => ⟨e, rfl⟩)
    | ok r => exact Iff.intro (fun ⟨_, h⟩ => by cases h) (fun ⟨_, h⟩ => by cases h)
  rw [hmap]
  constructor
  · rintro ⟨e, he⟩
    obtain ⟨sp, hsp, hfail⟩ := mapM_error he
    exact ⟨sp, hsp, (endCGSpline_eq_error lib _ sp hB).1 ⟨e, hfail⟩⟩
  · rintro ⟨sp, hsp, hbad⟩
    obtain ⟨e, he⟩ := (endCGSpline_eq_error lib _ sp hB).2 hbad
    exact mapM_eq_error_of_mem hsp he

/-- **`EndCG` returns when the names fit and the results are long enough**. -/
theorem endCG_eq_ok (lib : Numerics K) {s : CGForceMatching K} (hB : s.BlockNum ≠ 0)
    (h : ∀ sp ∈ s.Splines, sp.splineName.utf8ByteSize ≤ 13 ∧ 2 * sp.knots ≤ sp.result.size) :
    ∃ s' files, endCG lib s = .ok (s', files) := by
  cases hend : endCG lib s with
  | ok r => exact ⟨r.1, r.2, rfl⟩
  | error e =>
    obtain ⟨sp, hsp, hbad⟩ := (endCG_eq_error lib hB).1 ⟨e, hend⟩
    have := h sp hsp
    omega

/-- **The values `EndCG` writes**: with `BlockNum ≠ 0`, when `EndCG` returns, every channel keeps
its place and has at every output point `result = resSum / BlockNum` and
`error = sqrt(resSum2 / BlockNum - result²)`. -/
theorem endCG_ok (lib : Numerics K) {s s' : CGForceMatching K} {files : List (ForceFile K)}
    (hB : s.BlockNum ≠ 0) (h : endCG lib s = .ok (s', files)) :
    s'.Splines.length = s.Splines.length ∧
      ∀ c (hc : c < s.Splines.length) (hc' : c < s'.Splines.length),
        ∀ i < s.Splines[c].res_output_coeff * s.Splines[c].knots,
          s'.Splines[c].result.entry i = (pointValues lib s.BlockNum s.Splines[c] i).1 ∧
            s'.Splines[c].error.entry i = (pointValues lib s.BlockNum s.Splines[c] i).2 := by
  unfold endCG at h
  cases hr : s.Splines.mapM (endCGSpline lib s.BlockNum) with
  | error e => rw [hr] at h; cases h
  | ok r =>
    rw [hr] at h
    cases h
    have hall := List.forall₂_iff_get.1 (mapM_ok hr)
    refine ⟨by simp [hall.1], fun c hc hc' i hi => ?_⟩
    have hcr : c < r.length := by rw [← hall.1]; exact hc
    have := hall.2 c hc hcr
    simp only [List.get_eq_getElem] at this
    simp only [List.getElem_map]
    exact endCGSpline_ok lib _ _ hB this hi

/-- **The force files**: with `BlockNum ≠ 0`, when `EndCG` returns it has written one file per
channel, in order, named `<splineName>.force`, headed by the channel's index, whose line `i` is
`getGridPoint(0) + i del_x_out`, the negated mean `-(resSum[i] / BlockNum)` and the error
`sqrt(resSum2[i] / BlockNum - mean²)`, for every output point `i`. -/
theorem endCG_files (lib : Numerics K) {s s' : CGForceMatching K} {files : List (ForceFile K)}
    (hB : s.BlockNum ≠ 0) (h : endCG lib s = .ok (s', files)) :
    files.length = s.Splines.length ∧
      ∀ c (hc : c < s.Splines.length) (hc' : c < files.length),
        files[c].file_name = s.Splines[c].splineName ++ ".force" ∧
        files[c].splineIndex = s.Splines[c].splineIndex ∧
        files[c].lines.length = s.Splines[c].res_output_coeff * s.Splines[c].knots ∧
        ∀ i < s.Splines[c].res_output_coeff * s.Splines[c].knots,
          files[c].lines[i]? = some ⟨s.Splines[c].Spline.getGridPoint 0 +
              i * s.Splines[c].del_x_out, -1 * (pointValues lib s.BlockNum s.Splines[c] i).1,
            (pointValues lib s.BlockNum s.Splines[c] i).2⟩ := by
  unfold endCG at h
  cases hr : s.Splines.mapM (endCGSpline lib s.BlockNum) with
  | error e => rw [hr] at h; cases h
  | ok r =>
    rw [hr] at h
    cases h
    have hall := List.forall₂_iff_get.1 (mapM_ok hr)
    refine ⟨by simp [hall.1], fun c hc hc' => ?_⟩
    have hcr : c < r.length := by rw [← hall.1]; exact hc
    have hsp : endCGSpline lib s.BlockNum s.Splines[c] = .ok (r[c].1, r[c].2) := hall.2 c hc hcr
    simp only [List.getElem_map]
    obtain ⟨hname, hindex, hlines⟩ := endCGSpline_file lib _ _ hB hsp
    refine ⟨hname, hindex, by rw [hlines, forceLines_length, List.length_range], fun i hi => ?_⟩
    obtain ⟨hres, herr⟩ := endCGSpline_ok lib _ _ hB hsp hi
    rw [hlines, forceLines_getElem? _ _ _ _ _ (by simpa using hi), List.getElem_range, hres, herr]

/-- The channel `bond` of `oneBond` after two blocks whose spline values add up to `4`, and
their squares to `10`, at both output points: mean `2`, error `1`. -/
def statsState : CGForceMatching ℚ :=
  let s := beginCG (oneBond : Options ℚ) (fun _ _ _ => pointSpline) 1 (fun _ _ => 0) (fun _ => 0)
  { s with BlockNum := 2, Splines := s.Splines.map fun sp =>
      { sp with resSum := ⟨2, fun _ => 4⟩, resSum2 := ⟨2, fun _ => 10⟩ } }

/-- The force file of `statsState`. -/
theorem endCG_files_stats :
    ∃ s' files, endCG idNumerics statsState = .ok (s', files) ∧
      files.length = statsState.Splines.length ∧
      ∀ c (hc : c < statsState.Splines.length) (hc' : c < files.length),
        files[c].file_name = statsState.Splines[c].splineName ++ ".force" ∧
        files[c].splineIndex = statsState.Splines[c].splineIndex ∧
        files[c].lines.length =
          statsState.Splines[c].res_output_coeff * statsState.Splines[c].knots ∧
        ∀ i < statsState.Splines[c].res_output_coeff * statsState.Splines[c].knots,
          files[c].lines[i]? = some ⟨statsState.Splines[c].Spline.getGridPoint 0 +
              i * statsState.Splines[c].del_x_out,
            -1 * (pointValues idNumerics statsState.BlockNum statsState.Splines[c] i).1,
            (pointValues idNumerics statsState.BlockNum statsState.Splines[c] i).2⟩ :=
  ⟨_, _, rfl, endCG_files idNumerics (s := statsState) (by decide) rfl⟩

/-- At `statsState` the file holds the mean `2`, negated, and the error `1`. -/
example : pointValues idNumerics statsState.BlockNum statsState.Splines[0] 1 = (2, 1) := by
  norm_num [pointValues, statsState, beginCG, registerAll, registerSpline, oneBond, idNumerics]

/-! ## Divisions of a whole run -/

/-- **Divisions by zero in a run**: with `N_frames ≥ 1`, a run of `m` frames from `BeginCG`
never computes `L % 0` (it returns), reaches `EndCG` with `BlockNum = m / N_frames`, which is
positive exactly when `m ≥ N_frames`; and then `EndCG` never divides by zero. -/
theorem run_endCG_divisions (lib : Numerics K) (opts : Options K)
    (G : K → K → K → CubicSpline K) (BeadCount : ℕ) (staleA : ℕ → ℕ → K) (staleb : ℕ → K)
    (hN : 0 < opts.frames_per_block) (confs : List (Topology K)) :
    ∃ s, run lib (beginCG opts G BeadCount staleA staleb) confs = .ok s ∧
      s.BlockNum = confs.length / opts.frames_per_block ∧
      (1 ≤ s.BlockNum ↔ opts.frames_per_block ≤ confs.length) ∧
      (opts.frames_per_block ≤ confs.length → endCG lib s ≠ .error .divisionByZero) := by
  have hN0 : 0 < (beginCG opts G BeadCount staleA staleb).N_frames := by simpa using hN
  obtain ⟨s, hs, -, hB⟩ := run_counter lib hN0 (beginCG_L ..) confs
  simp only [beginCG_BlockNum, beginCG_N_frames, Nat.zero_add] at hB
  have hiff : 1 ≤ s.BlockNum ↔ opts.frames_per_block ≤ confs.length := by
    rw [hB, Nat.le_div_iff_mul_le hN, Nat.one_mul]
  exact ⟨s, hs, hB, hiff, fun hm => endCG_ne_divisionByZero lib (by have := hiff.2 hm; omega)⟩

/-- One frame of one bead, in blocks of one frame. -/
theorem run_endCG_divisions_oneBond :
    ∃ s, run idNumerics (beginCG (oneBond : Options ℚ) (fun _ _ _ => pointSpline) 1
        (fun _ _ => 0) (fun _ => 0)) [quietFrame] = .ok s ∧
      s.BlockNum = [(quietFrame : Topology ℚ)].length / (oneBond : Options ℚ).frames_per_block ∧
      (1 ≤ s.BlockNum ↔
        (oneBond : Options ℚ).frames_per_block ≤ [(quietFrame : Topology ℚ)].length) ∧
      ((oneBond : Options ℚ).frames_per_block ≤ [(quietFrame : Topology ℚ)].length →
        endCG idNumerics s ≠ .error .divisionByZero) :=
  run_endCG_divisions idNumerics oneBond _ 1 _ _ (by decide) [quietFrame]

/-- `BeginCG` accepts blocks of zero frames, and the first frame then computes `L % 0`; and a
run shorter than one block reaches `EndCG` with `BlockNum = 0`, which then divides by it. -/
theorem divisionByZero_reachable :
    evalConfiguration idNumerics (beginCG { (oneBond : Options ℚ) with frames_per_block := 0 }
        (fun _ _ _ => pointSpline) 1 (fun _ _ => 0) (fun _ => 0)) quietFrame =
      .error .divisionByZero ∧
    (run idNumerics (beginCG { (oneBond : Options ℚ) with frames_per_block := 2 } (fun _ _ _ => pointSpline) 1
        (fun _ _ => 0) (fun _ => 0)) [quietFrame] >>= endCG idNumerics) = .error .divisionByZero :=
  ⟨rfl, rfl⟩

end EndCG

end Votca
