import Mathlib

/-!
# Polar segments of `ctp`

A `PolarSeg` is a list of polar sites with a position `_pos`, a list of polar neighbours, and two
flags. `CalcPos` sets `_pos` to the sites' centroid (`0` for an empty segment), `Translate`
shifts every site and `_pos` by one vector, and `PrintPolarNbPDB` moves each neighbour segment
by its periodic shift `S`, writes its sites, and moves it back by `-1 * S`.

The model keeps of `APolarSite` what `PolarSeg` reads: the position, the charge `Q00`, and the
answers of `IsCharged` and `IsPolarizable`; `APolarSite::Translate` adds the shift to the
position. A segment owns its sites (the destructor deletes them), so sites are values. The
segments a neighbour points to live in a store `ℕ → PolarSeg K`, keyed by the pointer.

Results:

* a run of method calls moves the sites rigidly, by the sum of the shifts of its `Translate`
  calls (`run_sites`); so it keeps the total charge and the two flags (`run_rigid`), and
  keeps `_pos` at the centroid of a segment with sites (`run_centred`), though not of an empty
  one, where `Translate` moves `_pos` away from the `0` that `CalcPos` sets;
* `PrintPolarNbPDB` gives every segment of the store back as it found it, for every list of
  neighbours, the segment itself and repeated neighbours included, and writes the segment's
  sites followed by each neighbour's sites shifted by its `S` (`printPolarNbPDB_eq`).

Proof shape: one lemma per method on the sites (`step_sites`), a run lemma by induction on the
calls, and for the printer a loop invariant on the fold (`printNbs_eq`), whose step is
`translate_translate` with `S + (-1) • S = 0`.
-/

namespace Votca.Ctp

variable {K : Type*}

/-- The parts of `APolarSite` that `PolarSeg` reads. -/
structure APolarSite (K : Type*) where
  /-- `getPos()` -/
  pos : Fin 3 → K
  /-- `getQ00()` -/
  Q00 : K
  /-- `IsCharged()` -/
  charged : Bool
  /-- `IsPolarizable()` -/
  polarizable : Bool

/-- `PolarNb`: the neighbour segment, as its key in the store, and the shift `getS()`. -/
structure PolarNb (K : Type*) where
  /-- `getNb()` -/
  nb : ℕ
  /-- `getS()` -/
  S : Fin 3 → K

/-- The members of `PolarSeg`; the sites are the `vector<APolarSite*>` it derives from. -/
structure PolarSeg (K : Type*) where
  /-- `_id` -/
  id : ℤ
  /-- the sites, `(*this)[i]` -/
  sites : List (APolarSite K)
  /-- `_pos` -/
  pos : Fin 3 → K
  /-- `_nbs` -/
  nbs : List (PolarNb K)
  /-- `_is_charged` -/
  isCharged : Bool
  /-- `_is_polarizable` -/
  isPolarizable : Bool

section Model

variable [Field K]

/-- `APolarSite::Translate(shift)`. -/
def APolarSite.translate (s : APolarSite K) (shift : Fin 3 → K) : APolarSite K :=
  { s with pos := s.pos + shift }

namespace PolarSeg

/-- `CalcPos()`: the sum of the site positions, divided by their number when there are any. -/
def calcPos (seg : PolarSeg K) : PolarSeg K :=
  let sum := seg.sites.foldl (fun p s => p + s.pos) 0
  { seg with pos := if 0 < seg.sites.length then fun a => sum a / (seg.sites.length : K) else sum }

/-- `PolarSeg(id, psites)`: the sites, then `CalcPos()`. The flags are left uninitialised; the
model takes what they hold as inputs. -/
def new (id : ℤ) (psites : List (APolarSite K)) (charged polarizable : Bool) : PolarSeg K :=
  calcPos ⟨id, psites, 0, [], charged, polarizable⟩

@[simp] theorem new_sites (id : ℤ) (psites : List (APolarSite K)) (charged polarizable : Bool) :
    (new id psites charged polarizable).sites = psites := rfl

/-- `PolarSeg(templ)`: copies of the sites, `_id`, `_pos` and the flags; the neighbours are not
copied. -/
def copy (templ : PolarSeg K) : PolarSeg K :=
  { templ with nbs := [] }

/-- `CalcTotQ()`. -/
def calcTotQ (seg : PolarSeg K) : K :=
  seg.sites.foldl (fun Q s => Q + s.Q00) 0

/-- `Translate(shift)`. -/
def translate (seg : PolarSeg K) (shift : Fin 3 → K) : PolarSeg K :=
  { seg with sites := seg.sites.map (·.translate shift), pos := seg.pos + shift }

/-- `CalcIsCharged()`. -/
def calcIsCharged (seg : PolarSeg K) : PolarSeg K :=
  { seg with isCharged := seg.sites.foldl (fun b s => if s.charged then true else b) false }

/-- `CalcIsPolarizable()`. -/
def calcIsPolarizable (seg : PolarSeg K) : PolarSeg K :=
  { seg with isPolarizable := seg.sites.foldl (fun b s => if s.polarizable then true else b) false }

/-- `AddPolarNb(pseg)`, with the new `PolarNb`. -/
def addPolarNb (seg : PolarSeg K) (nb : PolarNb K) : PolarSeg K :=
  { seg with nbs := seg.nbs ++ [nb] }

/-- `ClearPolarNbs()`. -/
def clearPolarNbs (seg : PolarSeg K) : PolarSeg K :=
  { seg with nbs := [] }

end PolarSeg

/-- A line `WritePdbLine(out, tag)` writes: the site and the tag. -/
abbrev PdbLine (K : Type*) := APolarSite K × String

/-- The loop of `PrintPolarNbPDB` over the neighbours: move the neighbour by `S`, write its
sites as `PNB`, move it by `-1 * S`. -/
def printNbs (nbs : List (PolarNb K)) (store : ℕ → PolarSeg K) (out : List (PdbLine K)) :
    (ℕ → PolarSeg K) × List (PdbLine K) :=
  nbs.foldl (fun (st : (ℕ → PolarSeg K) × List (PdbLine K)) nb =>
    let moved := Function.update st.1 nb.nb ((st.1 nb.nb).translate nb.S)
    (Function.update moved nb.nb ((moved nb.nb).translate ((-1 : K) • nb.S)),
      st.2 ++ (moved nb.nb).sites.map fun s => (s, "PNB"))) (store, out)

/-- `PrintPolarNbPDB(outfile)` of the segment `self` of the store: its sites as `CEN`, then the
loop over its neighbours. Returns the store and the lines written. -/
def printPolarNbPDB (store : ℕ → PolarSeg K) (self : ℕ) :
    (ℕ → PolarSeg K) × List (PdbLine K) :=
  printNbs (store self).nbs store ((store self).sites.map fun s => (s, "CEN"))

end Model

/-! ## Runs of method calls -/

/-- The methods of `PolarSeg` that change it. -/
inductive Call (K : Type*)
  /-- `CalcPos()` -/
  | calcPos
  /-- `Translate(shift)` -/
  | translate (shift : Fin 3 → K)
  /-- `CalcIsCharged()` -/
  | calcIsCharged
  /-- `CalcIsPolarizable()` -/
  | calcIsPolarizable
  /-- `AddPolarNb(pseg)` -/
  | addPolarNb (nb : PolarNb K)
  /-- `ClearPolarNbs()` -/
  | clearPolarNbs

section Run

variable [Field K]

/-- One call. -/
def step (seg : PolarSeg K) : Call K → PolarSeg K
  | .calcPos => seg.calcPos
  | .translate shift => seg.translate shift
  | .calcIsCharged => seg.calcIsCharged
  | .calcIsPolarizable => seg.calcIsPolarizable
  | .addPolarNb nb => seg.addPolarNb nb
  | .clearPolarNbs => seg.clearPolarNbs

/-- The calls in order. -/
def run (seg : PolarSeg K) (calls : List (Call K)) : PolarSeg K :=
  calls.foldl step seg

/-- How far a call moves the sites. -/
def Call.shift : Call K → Fin 3 → K
  | .translate shift => shift
  | _ => 0

/-- How far a run moves the sites: the sum of the shifts of its `Translate` calls. -/
def totalShift (calls : List (Call K)) : Fin 3 → K :=
  (calls.map Call.shift).sum

@[simp] theorem APolarSite.translate_zero (s : APolarSite K) : s.translate 0 = s := by
  simp [APolarSite.translate]

@[simp] theorem APolarSite.translate_translate (s : APolarSite K) (a b : Fin 3 → K) :
    (s.translate a).translate b = s.translate (a + b) := by
  simp [APolarSite.translate, add_assoc]

theorem PolarSeg.translate_translate (seg : PolarSeg K) (a b : Fin 3 → K) :
    (seg.translate a).translate b = seg.translate (a + b) := by
  simp [PolarSeg.translate, Function.comp_def, add_assoc]

theorem PolarSeg.translate_zero (seg : PolarSeg K) : seg.translate 0 = seg := by
  simp [PolarSeg.translate]

/-- **A call moves the sites rigidly**, by its shift. -/
theorem step_sites (seg : PolarSeg K) (c : Call K) :
    (step seg c).sites = seg.sites.map (·.translate c.shift) := by
  cases c <;> simp [step, Call.shift, PolarSeg.calcPos, PolarSeg.translate,
    PolarSeg.calcIsCharged, PolarSeg.calcIsPolarizable, PolarSeg.addPolarNb,
    PolarSeg.clearPolarNbs]

/-- **A run moves the sites rigidly**, by the sum of its shifts. -/
theorem run_sites (seg : PolarSeg K) (calls : List (Call K)) :
    (run seg calls).sites = seg.sites.map (·.translate (totalShift calls)) := by
  induction calls generalizing seg with
  | nil => simp [run, totalShift]
  | cons c calls ih =>
    rw [run, List.foldl_cons, ← run, ih, step_sites, List.map_map]
    simp [Function.comp_def, totalShift]

theorem calcTotQ_eq_sum (seg : PolarSeg K) :
    seg.calcTotQ = (seg.sites.map APolarSite.Q00).sum := by
  rw [PolarSeg.calcTotQ, List.sum_eq_foldl, List.foldl_map]

/-- **A run moves the sites rigidly and keeps what they carry**: after any calls the sites are
the initial ones moved by the sum of the shifts of the `Translate` calls, so the total charge
and what `CalcIsCharged` and `CalcIsPolarizable` find are those of the initial segment. -/
theorem run_rigid (seg : PolarSeg K) (calls : List (Call K)) :
    (run seg calls).sites = seg.sites.map (·.translate (totalShift calls)) ∧
      (run seg calls).calcTotQ = seg.calcTotQ ∧
      (run seg calls).calcIsCharged.isCharged = seg.calcIsCharged.isCharged ∧
      (run seg calls).calcIsPolarizable.isPolarizable =
        seg.calcIsPolarizable.isPolarizable := by
  refine ⟨run_sites seg calls, ?_⟩
  simp only [calcTotQ_eq_sum, PolarSeg.calcIsCharged, PolarSeg.calcIsPolarizable, run_sites,
    List.map_map, List.foldl_map]
  exact ⟨rfl, rfl, rfl⟩

end Run

/-! ## `_pos` is the centroid -/

section Centroid

variable [Field K]

/-- The centroid of the sites. -/
def centroid (sites : List (APolarSite K)) : Fin 3 → K :=
  (sites.length : K)⁻¹ • (sites.map APolarSite.pos).sum

/-- `_pos` is the centroid of the sites, when there are any. -/
def Centred (seg : PolarSeg K) : Prop :=
  seg.sites ≠ [] → seg.pos = centroid seg.sites

theorem calcPos_pos (seg : PolarSeg K) (h : seg.sites ≠ []) :
    seg.calcPos.pos = centroid seg.sites := by
  have hlen : 0 < seg.sites.length := List.length_pos.2 h
  funext a
  simp only [PolarSeg.calcPos, if_pos hlen, centroid, Pi.smul_apply, smul_eq_mul]
  rw [← List.foldl_map APolarSite.pos, ← List.sum_eq_foldl, div_eq_inv_mul]

theorem centroid_translate [CharZero K] (sites : List (APolarSite K)) (h : sites ≠ [])
    (shift : Fin 3 → K) :
    centroid (sites.map (·.translate shift)) = centroid sites + shift := by
  have hn : (sites.length : K) ≠ 0 := Nat.cast_ne_zero.2 (List.length_pos.2 h).ne'
  simp only [centroid, List.length_map, List.map_map, Function.comp_def, APolarSite.translate,
    List.sum_map_add, List.map_const', List.sum_replicate, smul_add]
  rw [← Nat.cast_smul_eq_nsmul K, smul_smul, inv_mul_cancel₀ hn, one_smul]

/-- **Every call keeps `_pos` at the centroid** of a segment with sites. -/
theorem step_centred [CharZero K] {seg : PolarSeg K} (h : Centred seg) (c : Call K) :
    Centred (step seg c) := by
  intro hne
  have hne' : seg.sites ≠ [] := by simpa [step_sites] using hne
  cases c with
  | calcPos => exact calcPos_pos seg hne'
  | translate shift =>
    simp only [step, PolarSeg.translate, centroid_translate _ hne', h hne']
  | _ => exact h hne'

/-- **A run keeps `_pos` at the centroid** of a segment with sites, from any state where it is:
for every list of calls. -/
theorem run_centred [CharZero K] {seg : PolarSeg K} (h : Centred seg) (calls : List (Call K)) :
    Centred (run seg calls) := by
  induction calls generalizing seg with
  | nil => exact h
  | cons c calls ih => exact ih (step_centred h c)

theorem new_centred (id : ℤ) (psites : List (APolarSite K)) (charged polarizable : Bool) :
    Centred (PolarSeg.new id psites charged polarizable) :=
  fun hne => calcPos_pos _ hne

/-- **A segment built from sites keeps `_pos` at their centroid** through every run of calls:
`_pos` is the centroid of the initial sites moved by the run's shifts. -/
theorem new_run_pos [CharZero K] (id : ℤ) (psites : List (APolarSite K)) (h : psites ≠ [])
    (charged polarizable : Bool) (calls : List (Call K)) :
    (run (PolarSeg.new id psites charged polarizable) calls).pos =
      centroid psites + totalShift calls := by
  have hc := run_centred (new_centred id psites charged polarizable) calls
  rw [hc (by simpa [run_sites] using h), run_sites, PolarSeg.new_sites, centroid_translate _ h]

/-- Two sites at `x̂` and `ŷ`, moved by `ẑ`, re-centred, and moved by `(1, 1, 1)`: `_pos` ends
at `(1/2, 1/2, 0) + (1, 1, 2)`. -/
theorem new_run_pos_twoSites :
    [(⟨![1, 0, 0], 1, true, false⟩ : APolarSite ℚ), ⟨![0, 1, 0], -1, true, false⟩] ≠ [] ∧
      (run (PolarSeg.new 0 [⟨![1, 0, 0], 1, true, false⟩, ⟨![0, 1, 0], -1, true, false⟩]
          false false) [.translate ![0, 0, 1], .calcPos, .translate ![1, 1, 1]]).pos =
        centroid [(⟨![1, 0, 0], 1, true, false⟩ : APolarSite ℚ), ⟨![0, 1, 0], -1, true, false⟩] +
          totalShift [(.translate ![0, 0, 1] : Call ℚ), .calcPos, .translate ![1, 1, 1]] :=
  have h : [(⟨![1, 0, 0], 1, true, false⟩ : APolarSite ℚ), ⟨![0, 1, 0], -1, true, false⟩] ≠ [] :=
    List.cons_ne_nil _ _
  ⟨h, new_run_pos 0 _ h false false _⟩

example : centroid [(⟨![1, 0, 0], 1, true, false⟩ : APolarSite ℚ), ⟨![0, 1, 0], -1, true, false⟩] +
    totalShift [(.translate ![0, 0, 1] : Call ℚ), .calcPos, .translate ![1, 1, 1]] =
      ![3 / 2, 3 / 2, 2] := by
  funext a
  fin_cases a <;> simp [centroid, totalShift, Call.shift] <;> norm_num

end Centroid

/-! ## `PrintPolarNbPDB` gives the store back -/

section Print

variable [Field K]

/-- Moving a segment by `S` and back by `-1 * S` leaves it as it was. -/
theorem translate_neg_S (seg : PolarSeg K) (S : Fin 3 → K) :
    (seg.translate S).translate ((-1 : K) • S) = seg := by
  rw [PolarSeg.translate_translate, neg_one_smul, add_neg_cancel, PolarSeg.translate_zero]

/-- **The loop invariant**: over any neighbours, the store comes back unchanged and each
neighbour's sites are written shifted by its `S`. -/
theorem printNbs_eq (nbs : List (PolarNb K)) (store : ℕ → PolarSeg K) (out : List (PdbLine K)) :
    printNbs nbs store out =
      (store, out ++ nbs.flatMap fun nb => ((store nb.nb).translate nb.S).sites.map
        fun s => (s, "PNB")) := by
  induction nbs generalizing out with
  | nil => simp [printNbs]
  | cons nb nbs ih =>
    have hstep : Function.update (Function.update store nb.nb ((store nb.nb).translate nb.S))
        nb.nb (((store nb.nb).translate nb.S).translate ((-1 : K) • nb.S)) = store := by
      rw [Function.update_idem, translate_neg_S, Function.update_eq_self]
    simp only [printNbs, List.foldl_cons, Function.update_same] at ih ⊢
    rw [hstep, ih, List.flatMap_cons, List.append_assoc]

/-- **`PrintPolarNbPDB` gives every segment back** as it found it (in exact arithmetic), for
every neighbour list, repeated neighbours and the segment itself included, and writes the
segment's sites as `CEN`, then, for each neighbour in order, the neighbour's sites moved by its
`S` as `PNB`. -/
theorem printPolarNbPDB_eq (store : ℕ → PolarSeg K) (self : ℕ) :
    printPolarNbPDB store self =
      (store, (store self).sites.map (fun s => (s, "CEN")) ++
        (store self).nbs.flatMap fun nb =>
          (store nb.nb).sites.map fun s => (s.translate nb.S, "PNB")) := by
  rw [printPolarNbPDB, printNbs_eq]
  simp [PolarSeg.translate, Function.comp_def]

end Print

end Votca.Ctp
