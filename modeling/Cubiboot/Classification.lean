import Mathlib.Algebra.Ring.Nat
import Mathlib.Tactic.Common
import Mathlib.Data.List.GetD
import Cubiboot.GameInfo

/-
  What `get_game_info` makes of one image file after another.

  Each call is put to the file it was given (`imageAnswer`): its bytes, whether
  it opens, and how each of its reads ends. The memory the reads go to is
  passed on from call to call, as the static buffers are.

  The same program put to the file alone, where a byte no read of this call
  delivered is refused (`ownAnswer`), either comes to an end without such a
  byte or does not (`OwnBytesOnly`).

  What is proved:
    1. `classify_of_ownBytesOnly` — a file whose classification uses nothing
       but what its own reads delivered is classified the same in every memory.
    2. `classify_after_planted`, `classify_after_oversized` — a header read
       that stops short of `DOLOffset` leaves the verdict to the file before:
       valid after one file, invalid after another.
-/

set_option autoImplicit false

namespace Cubiboot

/-- An image file as a call of `get_game_info` meets it. `outcome n = some k`:
the `n`th read of the call fails with `k` bytes in the buffer. A read that does
not fail brings what there is, and returns 0 when that is less than asked. -/
structure Image where
  path : Path
  bytes : List UInt8
  opens : Bool
  outcome : Nat → Option Nat

def Image.serve (f : Image) (n : Nat) (len offset : UInt32) : UInt32 × List UInt8 :=
  let asked := (f.bytes.drop offset.toNat).take len.toNat
  match f.outcome n with
  | none => (0, asked)
  | some k => (1, asked.take k)

/-- The buffers, and the number of reads the call has made. -/
structure CallState (β : Type) where
  mem : Cells β
  reads : Nat

def CallState.landed {β : Type} (s : CallState β) (a : Area) (p : UInt32) (xs : List β) : CallState β :=
  ⟨s.mem.put a p xs, s.reads + 1⟩

def Image.status (f : Image) : FileStatus := ⟨if f.opens then 0 else 1, .ofNat f.bytes.length⟩

def imageAnswer (f : Image) : (q : FileReq) → CallState UInt8 → FileAns q × CallState UInt8
  | .openFile _, s => (if f.opens then 0 else 1, s)
  | .status, s => (f.status, s)
  | .read dst p len offset, s =>
    let (ret, xs) := f.serve s.reads len offset
    (ret, s.landed dst p xs)
  | .close, s => ((), s)
  | .clear a len, s => ((), { s with mem := s.mem.put a 0 (List.replicate len.toNat 0) })
  | .load a p, s => (s.mem a p, s)

/-- The same, where a cell holds a byte only if this call put it there. -/
def ownAnswer (f : Image) : (q : FileReq) → CallState (Option UInt8) →
    Option (FileAns q × CallState (Option UInt8))
  | .openFile _, s => some (if f.opens then 0 else 1, s)
  | .status, s => some (f.status, s)
  | .read dst p len offset, s =>
    let (ret, xs) := f.serve s.reads len offset
    some (ret, s.landed dst p (xs.map some))
  | .close, s => some ((), s)
  | .clear a len, s => some ((), { s with mem := s.mem.put a 0 (List.replicate len.toNat (some 0)) })
  | .load a p, s => (s.mem a p).map fun b => (b, s)

variable (bnrOffsets : List BnrOffset)

/-- One call: the result, and the buffers as it leaves them. -/
def classify (mem : Cells UInt8) (f : Image) : GameInfo × Cells UInt8 :=
  let (info, s) := (getGameInfo bnrOffsets f.path).run (imageAnswer f) ⟨mem, 0⟩
  (info, s.mem)

/-- The buffers after calls for each of `files`. -/
def afterFiles (mem : Cells UInt8) (files : List Image) : Cells UInt8 :=
  files.foldl (fun m f => (classify bnrOffsets m f).2) mem

/-- No byte the classification looks at is one that this call's own reads did
not deliver. -/
def OwnBytesOnly (f : Image) : Prop :=
  ((getGameInfo bnrOffsets f.path).tryRun (ownAnswer f) ⟨fun _ _ => none, 0⟩).isSome

instance (f : Image) : Decidable (OwnBytesOnly bnrOffsets f) :=
  inferInstanceAs (Decidable (_ = true))

/-! ## Own bytes -/

/-- Whatever is known of a buffer is so. -/
def KnownIn (s : CallState UInt8) (t : CallState (Option UInt8)) : Prop :=
  s.reads = t.reads ∧ ∀ a i b, t.mem a i = some b → s.mem a i = b

theorem put_known {m : Cells UInt8} {t : Cells (Option UInt8)} (h : ∀ a i b, t a i = some b → m a i = b)
    (a : Area) (p : UInt32) (xs : List UInt8) :
    ∀ a' i b, t.put a p (xs.map some) a' i = some b → m.put a p xs a' i = b := by
  intro a' i b hb
  by_cases ha : a' = a
  · subst ha
    simp only [Cells.put, Function.update_self, List.getD_eq_getElem?_getD, List.getElem?_map] at hb ⊢
    cases hx : xs[(i - p).toNat]? with
    | none => rw [hx] at hb; simpa [hx] using h _ _ _ hb
    | some x => rw [hx] at hb; simpa [hx] using hb
  · simp only [Cells.put, Function.update_of_ne ha] at hb ⊢
    exact h _ _ _ hb

theorem image_simulates_own (f : Image) : Dialogue.Simulates (imageAnswer f) (ownAnswer f) KnownIn := by
  intro q s t r t' hR hq
  obtain ⟨hreads, hmem⟩ := hR
  cases q with
  | openFile | status | close =>
    obtain ⟨hr, rfl⟩ := Prod.mk.inj (Option.some.inj hq)
    exact ⟨hr, hreads, hmem⟩
  | read dst p len offset =>
    obtain ⟨hr, rfl⟩ := Prod.mk.inj (Option.some.inj hq)
    subst hr
    simp only [imageAnswer, hreads]
    exact ⟨rfl, congrArg (· + 1) hreads, put_known hmem dst p _⟩
  | clear a len =>
    obtain ⟨hr, rfl⟩ := Prod.mk.inj (Option.some.inj hq)
    refine ⟨hr, hreads, ?_⟩
    have := put_known hmem a 0 (List.replicate len.toNat 0)
    rwa [List.map_replicate] at this
  | load a p =>
    simp only [ownAnswer, Option.map_eq_some_iff] at hq
    obtain ⟨b, hb, heq⟩ := hq
    obtain ⟨rfl, rfl⟩ := Prod.mk.inj heq
    exact ⟨hmem a p b hb, hreads, hmem⟩

/-- A file classified from its own bytes is classified the same in every memory. -/
theorem classify_of_ownBytesOnly {f : Image} (h : OwnBytesOnly bnrOffsets f) (mem mem' : Cells UInt8) :
    (classify bnrOffsets mem f).1 = (classify bnrOffsets mem' f).1 := by
  obtain ⟨⟨info, t⟩, hrun⟩ := Option.isSome_iff_exists.mp h
  have hall : ∀ m : Cells UInt8, (classify bnrOffsets m f).1 = info := fun m =>
    (Dialogue.run_eq_of_tryRun (image_simulates_own f) (s := ⟨m, 0⟩)
      ⟨rfl, fun _ _ _ hb => by simp at hb⟩ hrun).1
  rw [hall mem, hall mem']

/-! ## What one call does, piece by piece -/

def wordAt (m : Cells UInt8) (a : Area) (p : UInt32) : UInt32 :=
  be32 (m a p) (m a (p + 1)) (m a (p + 2)) (m a (p + 3))

section
variable (f : Image) (s : CallState UInt8)

@[simp] theorem run_load (a : Area) (p : UInt32) : (load a p).run (imageAnswer f) s = (s.mem a p, s) := rfl

@[simp] theorem run_loadU32 (a : Area) (p : UInt32) :
    (loadU32 a p).run (imageAnswer f) s = (wordAt s.mem a p, s) := rfl

@[simp] theorem run_dvdCustomOpen (path : Path) :
    (dvdCustomOpen path).run (imageAnswer f) s = (if f.opens then 0 else 1, s) := rfl

@[simp] theorem run_dvdCustomStatus : dvdCustomStatus.run (imageAnswer f) s = (f.status, s) := rfl

@[simp] theorem run_dvdCustomClose : dvdCustomClose.run (imageAnswer f) s = ((), s) := rfl

@[simp] theorem run_dvdThreadedRead (dst : Area) (p len offset : UInt32) :
    (dvdThreadedRead dst p len offset).run (imageAnswer f) s =
      ((f.serve s.reads len offset).1, s.landed dst p (f.serve s.reads len offset).2) := rfl

@[simp] theorem run_loadBytes_state (a : Area) (p : UInt32) (n : Nat) :
    ((loadBytes a p n).run (imageAnswer f) s).2 = s := by
  induction n generalizing p with
  | zero => rfl
  | succ n ih => simp [loadBytes, ih]

@[simp] theorem run_gameInfoAt_state (magic off : UInt32) :
    ((gameInfoAt magic off).run (imageAnswer f) s).2 = s := by simp [gameInfoAt]

@[simp] theorem run_gameInfoAt_valid (magic off : UInt32) :
    ((gameInfoAt magic off).run (imageAnswer f) s).1.valid = true := by simp [gameInfoAt]

end

/-! ## A header that stops short of `DOLOffset` -/

/-- The buffers once the header read is done. -/
def afterHeader (mem : Cells UInt8) (f : Image) : Cells UInt8 :=
  mem.put .header 0 (f.serve 0 sizeofDiskHeader 0).2

/-- Past the bytes of any file considered here. -/
def farOffset : UInt32 := 0xFFFFFF00
def farBanner : UInt32 := 0xFFFFFF40

/-- An FST of two entries, the second `opening.bnr` at `farBanner`. -/
def plantedFst : List UInt8 :=
  [0, 0, 0, 0, 0, 0, 0, 0, 0, 0, 0, 2] ++ [0, 0, 0, 0, 0xFF, 0xFF, 0xFF, 0x40, 0, 0, 0, 0] ++ openingBnr ++
    List.replicate 29 0

/-- A header with no DOL, its FST at `farOffset`. -/
def plantedHeader (fstSize : List UInt8) : List UInt8 :=
  List.replicate 0x424 0 ++ [0xFF, 0xFF, 0xFF, 0] ++ fstSize ++ List.replicate 20 0

/-- The planted FST is in memory. -/
def HasPlantedFst (m : Cells UInt8) : Prop :=
  ∀ k : Fin 64, m .ram (fstBase + .ofNat k) = plantedFst.getD k 0

theorem HasPlantedFst.cell {m : Cells UInt8} (h : HasPlantedFst m) {p : UInt32} {b : UInt8} (k : Fin 64)
    (hp : p = fstBase + .ofNat k) (hb : plantedFst.getD k 0 = b) : m .ram p = b := by
  rw [hp, h k, hb]

theorem HasPlantedFst.word {m : Cells UInt8} (h : HasPlantedFst m) {p w : UInt32} (k : Fin 61)
    (hp : p = fstBase + .ofNat k) (hw : be32 (plantedFst.getD k 0) (plantedFst.getD (k + 1) 0)
      (plantedFst.getD (k + 2) 0) (plantedFst.getD (k + 3) 0) = w) : wordAt m .ram p = w := by
  have hnext : ∀ j : Fin 61, fstBase + .ofNat j + 1 = fstBase + .ofNat (j + 1) ∧
      fstBase + .ofNat j + 2 = fstBase + .ofNat (j + 2) ∧
      fstBase + .ofNat j + 3 = fstBase + .ofNat (j + 3) := by decide
  obtain ⟨h1, h2, h3⟩ := hnext k
  rw [← hw, hp, wordAt, h1, h2, h3, h ⟨k, by omega⟩, h ⟨k + 1, by omega⟩, h ⟨k + 2, by omega⟩,
    h ⟨k + 3, by omega⟩]

/-- A string in memory equals itself. -/
theorem run_strcasecmpAt_self {f : Image} {st : CallState UInt8} : ∀ (s : List UInt8) (p : UInt32),
    (∀ k < s.length, st.mem .ram (p + .ofNat k) = s.getD k 0) →
    (strcasecmpAt p s).run (imageAnswer f) st = (true, st)
  | [], _, _ => rfl
  | c :: s, p, h => by
    have h0 : st.mem .ram p = c := by
      have := h 0 (Nat.zero_lt_succ _)
      rw [List.getD_cons_zero] at this
      simpa using this
    have hrest : ∀ k < s.length, st.mem .ram (p + 1 + .ofNat k) = s.getD k 0 := by
      intro k hk
      have := h (k + 1) (Nat.succ_lt_succ hk)
      rwa [List.getD_cons_succ, Nat.add_comm k 1, UInt32.ofNat_add, ← UInt32.add_assoc] at this
    simp [strcasecmpAt, h0, run_strcasecmpAt_self s (p + 1) hrest]

theorem run_fstSearch_planted {m : Cells UInt8} (h : HasPlantedFst m) (f : Image) (n : Nat) :
    (fstSearch (fstBase + 24) 1 1).run (imageAnswer f) ⟨m, n⟩ = (⟨farBanner, 0⟩, ⟨m, n⟩) := by
  have hs : (strcasecmpAt (fstBase + 24) (openingBnr ++ [0])).run (imageAnswer f) ⟨m, n⟩ = (true, ⟨m, n⟩) := by
    apply run_strcasecmpAt_self
    have hfin : ∀ k : Fin 12, fstBase + 24 + .ofNat k = fstBase + .ofNat (24 + k) ∧
        plantedFst.getD (24 + k) 0 = (openingBnr ++ [0]).getD k 0 := by decide
    intro k hk
    have hk12 : k < 12 := hk
    obtain ⟨hp, hb⟩ := hfin ⟨k, hk12⟩
    exact h.cell ⟨24 + k, by omega⟩ hp hb
  have ho : fstBase + 24 + be32 0 (m .ram (fstBase + 12 + 1)) (m .ram (fstBase + 12 + 2))
      (m .ram (fstBase + 12 + 3)) = fstBase + 24 := by
    rw [h.cell 13 (by decide) rfl, h.cell 14 (by decide) rfl, h.cell 15 (by decide) rfl]
    decide
  have hft : m .ram (fstBase + 12) = 0 := h.cell 12 (by decide) rfl
  have haddr : wordAt m .ram (fstBase + 12 + 4) = farBanner := h.word 16 (by decide) (by decide)
  have hlen : wordAt m .ram (fstBase + 12 + 8) = 0 := h.word 20 (by decide) (by decide)
  simp [fstSearch, ho, hft, hs, haddr, hlen]

section
variable {f : Image} {mem : Cells UInt8} (hopens : f.opens = true)
  (hdol : wordAt (afterHeader mem f) .header dolOffsetAt = 0)

include hopens hdol

/-- With no DOL and an oversized FST the verdict is invalid, and only the header moved. -/
theorem classify_oversized (hsize : 0x100000 < wordAt (afterHeader mem f) .header fstSizeAt) :
    classify bnrOffsets mem f = (.invalid, afterHeader mem f) := by
  simp only [afterHeader] at hdol hsize ⊢
  simp [classify, getGameInfo, getGameInfoOpened, getBannerOffsetFast, getGameInfoSlow, hopens,
    Image.status, CallState.landed, hdol, hsize]

/-- With no DOL, the planted FST in memory after the FST read and the planted
magic after the probe, the verdict is valid. -/
theorem classify_planted {ram small : Cells UInt8}
    (hsize : wordAt (afterHeader mem f) .header fstSizeAt = 64)
    (hoff : wordAt (afterHeader mem f) .header fstOffsetAt = farOffset)
    (hram : (afterHeader mem f).put .ram fstBase (f.serve 1 64 farOffset).2 = ram)
    (hfst : HasPlantedFst ram)
    (hsmall : ram.put .smallBuf 0 (f.serve 2 32 farBanner).2 = small)
    (hmagic : wordAt small .smallBuf 0 = bannerMagic1) :
    (classify bnrOffsets mem f).1.valid = true ∧ (classify bnrOffsets mem f).2 = small := by
  have htotal : wordAt ram .ram (fstBase + 8) = 2 := hfst.word 8 (by decide) (by decide)
  have hround : osRoundUp32B 64 = 64 := by decide
  have hin : ¬ (fstBase + 24 < fstBase ∨ fstLimit < fstBase + 24) := by decide
  have hfar : farBanner ≠ 0 := by decide
  simp only [afterHeader] at hdol hsize hoff hram
  constructor <;>
    simp [classify, getGameInfo, getGameInfoOpened, getBannerOffsetFast, getGameInfoSlow,
      getBannerOffsetSlow, probeBanner, hopens, Image.status, CallState.landed, hdol, hsize, hoff, hround,
      hram, htotal, hin, run_fstSearch_planted hfst, hfar, hsmall, hmagic]

end

/-! ### The two files to come before -/

theorem put_past {β : Type} (m : Cells β) (a : Area) {p i : UInt32} {xs : List β}
    (h : xs.length ≤ (i - p).toNat) : m.put a p xs a i = m a i := by
  simp only [Cells.put, Function.update_self, List.getD_eq_getElem?_getD, List.getElem?_eq_none h,
    Option.getD_none]

theorem put_nil {β : Type} (m : Cells β) (a : Area) (p : UInt32) : m.put a p [] = m := by
  funext a' i
  by_cases ha : a' = a
  · subst ha
    exact put_past m a' (Nat.zero_le _)
  · rw [Cells.put, Function.update_of_ne ha]

theorem put_other {β : Type} (m : Cells β) {a a' : Area} (h : a' ≠ a) (p : UInt32) (xs : List β) :
    m.put a p xs a' = m a' := Function.update_of_ne h ..

theorem afterHeader_other (m : Cells UInt8) (f : Image) {a : Area} (h : a ≠ .header) :
    afterHeader m f a = m a := put_other m h ..

theorem wordAt_congr {m m' : Cells UInt8} {a : Area} (h : m' a = m a) (p : UInt32) :
    wordAt m' a p = wordAt m a p := by simp only [wordAt, h]

theorem HasPlantedFst.congr {m m' : Cells UInt8} (hm : HasPlantedFst m) (h : m' .ram = m .ram) :
    HasPlantedFst m' := by
  intro k
  rw [h]
  exact hm k

/-- A read past the end brings nothing. -/
theorem serve_past {f : Image} {offset : UInt32} (h : f.bytes.length ≤ offset.toNat) (n : Nat)
    (len : UInt32) : (f.serve n len offset).2 = [] := by
  simp only [Image.serve, List.drop_eq_nil_of_le h, List.take_nil]
  split <;> rfl

/-- The bytes between a planted header and what stands at `farOffset`. -/
@[irreducible] def gap : List UInt8 := List.replicate (farOffset.toNat - 0x440) 0

theorem plantedHeader_length (sz : List UInt8) : (plantedHeader sz).length = 0x43C + sz.length := by
  simp only [plantedHeader, List.length_append, List.length_replicate, List.length_cons, List.length_nil]
  omega

theorem plantedHeader_gap_length : (plantedHeader [0, 0, 0, 64] ++ gap).length = farOffset.toNat := by
  have hfar : farOffset.toNat = 4294967040 := rfl
  rw [List.length_append, gap, List.length_replicate, plantedHeader_length, hfar]
  simp

def planted : Image :=
  ⟨[], (plantedHeader [0, 0, 0, 64] ++ gap) ++ (plantedFst ++ cstr "BNR1"), true, fun _ => none⟩

def oversized : Image := ⟨[], plantedHeader [0xFF, 0xFF, 0xFF, 0xFF], true, fun _ => none⟩

theorem planted_header : (planted.serve 0 sizeofDiskHeader 0).2 = plantedHeader [0, 0, 0, 64] := by
  have hlen : (plantedHeader [0, 0, 0, 64]).length = sizeofDiskHeader.toNat := by
    rw [plantedHeader_length]
    rfl
  simp only [Image.serve, planted, UInt32.toNat_zero, List.drop_zero, List.append_assoc]
  exact List.take_left' hlen

theorem planted_fst : (planted.serve 1 64 farOffset).2 = plantedFst := by
  simp only [Image.serve, planted]
  rw [List.drop_left' plantedHeader_gap_length]
  rfl

theorem planted_banner : (planted.serve 2 32 farBanner).2 = cstr "BNR1" := by
  have hlen : (plantedHeader [0, 0, 0, 64] ++ gap ++ plantedFst).length = farBanner.toNat := by
    rw [List.length_append, plantedHeader_gap_length]
    rfl
  simp only [Image.serve, planted]
  rw [← List.append_assoc _ plantedFst, List.drop_left' hlen]
  rfl

/-- A planted header in memory. -/
theorem plantedHeader_word {m : Cells UInt8} {sz : List UInt8} (p : UInt32) {w : UInt32}
    (hw : be32 ((plantedHeader sz).getD p.toNat 0) ((plantedHeader sz).getD (p + 1).toNat 0)
      ((plantedHeader sz).getD (p + 2).toNat 0) ((plantedHeader sz).getD (p + 3).toNat 0) = w)
    (hlen : p.toNat + 3 < (plantedHeader sz).length) (hsmall : (plantedHeader sz).length ≤ 2 ^ 32) :
    wordAt (m.put .header 0 (plantedHeader sz)) .header p = w := by
  have hcell : ∀ q : UInt32, q.toNat ≤ p.toNat + 3 →
      m.put .header 0 (plantedHeader sz) .header q = (plantedHeader sz).getD q.toNat 0 := by
    intro q hq
    have hin : q.toNat < (plantedHeader sz).length := by omega
    simp [Cells.put, hin]
  have hnext : ∀ k : UInt32, k.toNat ≤ 3 → (p + k).toNat ≤ p.toNat + 3 := by
    intro k hk
    rw [UInt32.toNat_add, Nat.mod_eq_of_lt (by omega)]
    omega
  rw [← hw, wordAt, hcell p (by omega), hcell (p + 1) (hnext 1 (by decide)), hcell (p + 2) (hnext 2 (by decide)),
    hcell (p + 3) (hnext 3 (by decide))]

/-- What the two files leave in the header buffer. -/
structure Leaves (m : Cells UInt8) (fstSize : UInt32) : Prop where
  dol : wordAt m .header dolOffsetAt = 0
  fst : wordAt m .header fstOffsetAt = farOffset
  size : wordAt m .header fstSizeAt = fstSize

theorem Leaves.congr {m m' : Cells UInt8} {fstSize : UInt32} (hm : Leaves m fstSize)
    (h : m' .header = m .header) : Leaves m' fstSize :=
  ⟨(wordAt_congr h _).trans hm.dol, (wordAt_congr h _).trans hm.fst, (wordAt_congr h _).trans hm.size⟩

theorem planted_leaves (m : Cells UInt8) : Leaves (afterHeader m planted) 64 := by
  rw [afterHeader, planted_header]
  have hlen := plantedHeader_length [0, 0, 0, 64]
  refine ⟨plantedHeader_word _ (by decide +kernel) ?_ ?_, plantedHeader_word _ (by decide +kernel) ?_ ?_,
    plantedHeader_word _ (by decide +kernel) ?_ ?_⟩ <;> rw [hlen] <;> decide

theorem oversized_leaves (m : Cells UInt8) : Leaves (afterHeader m oversized) 0xFFFFFFFF := by
  have hlen := plantedHeader_length [0xFF, 0xFF, 0xFF, 0xFF]
  have hserve : (oversized.serve 0 sizeofDiskHeader 0).2 = plantedHeader [0xFF, 0xFF, 0xFF, 0xFF] := by
    simp only [Image.serve, oversized, UInt32.toNat_zero, List.drop_zero]
    apply List.take_of_length_le
    rw [hlen]
    decide
  rw [afterHeader, hserve]
  refine ⟨plantedHeader_word _ (by decide +kernel) ?_ ?_, plantedHeader_word _ (by decide +kernel) ?_ ?_,
    plantedHeader_word _ (by decide +kernel) ?_ ?_⟩ <;> rw [hlen] <;> decide

/-- A header read that stops short of `DOLOffset` leaves the fields of the file before. -/
theorem Leaves.short {m : Cells UInt8} {fstSize : UInt32} (h : Leaves m fstSize) {f : Image}
    (hshort : (f.serve 0 sizeofDiskHeader 0).2.length ≤ dolOffsetAt.toNat) :
    Leaves (afterHeader m f) fstSize := by
  have hcell : ∀ i : UInt32, dolOffsetAt ≤ i → afterHeader m f .header i = m .header i := by
    intro i hi
    apply put_past
    rw [UInt32.sub_zero]
    exact Nat.le_trans hshort (UInt32.le_iff_toNat_le.mp hi)
  have hword : ∀ i : UInt32, dolOffsetAt ≤ i → dolOffsetAt ≤ i + 1 → dolOffsetAt ≤ i + 2 →
      dolOffsetAt ≤ i + 3 → wordAt (afterHeader m f) .header i = wordAt m .header i := by
    intro i h0 h1 h2 h3
    rw [wordAt, hcell i h0, hcell _ h1, hcell _ h2, hcell _ h3, wordAt]
  constructor
  · rw [hword _ (by decide) (by decide) (by decide) (by decide), h.dol]
  · rw [hword _ (by decide) (by decide) (by decide) (by decide), h.fst]
  · rw [hword _ (by decide) (by decide) (by decide) (by decide), h.size]

/-- The planted file leaves its header, its FST and its magic behind. -/
theorem classify_planted_leaves (m : Cells UInt8) :
    Leaves (classify bnrOffsets m planted).2 64 ∧ HasPlantedFst (classify bnrOffsets m planted).2 ∧
      wordAt (classify bnrOffsets m planted).2 .smallBuf 0 = bannerMagic1 := by
  have hl := planted_leaves m
  have hopens : planted.opens = true := rfl
  have hfst : HasPlantedFst ((afterHeader m planted).put .ram fstBase (planted.serve 1 64 farOffset).2) := by
    intro k
    have hoff : ∀ k : Fin 64, (fstBase + .ofNat k - fstBase).toNat = k := by decide
    have hk : k.val < plantedFst.length := k.isLt
    simp only [planted_fst, Cells.put, Function.update_self, hoff k]
    rw [List.getD_eq_getElem _ _ hk, List.getD_eq_getElem _ _ hk]
  generalize hram : (afterHeader m planted).put .ram fstBase (planted.serve 1 64 farOffset).2 = ram at hfst
  have hmagic : wordAt (ram.put .smallBuf 0 (planted.serve 2 32 farBanner).2) .smallBuf 0 =
      bannerMagic1 := by
    rw [planted_banner, wordAt]
    simp only [Cells.put, Function.update_self]
    show be32 66 78 82 49 = bannerMagic1
    decide
  generalize hsmall : ram.put .smallBuf 0 (planted.serve 2 32 farBanner).2 = small at hmagic
  obtain ⟨-, hmem⟩ := classify_planted bnrOffsets hopens hl.dol hl.size hl.fst hram hfst hsmall hmagic
  have hsm : ∀ a, a ≠ .smallBuf → small a = ram a := fun a ha => by rw [← hsmall, put_other _ ha]
  have hrm : ram .header = afterHeader m planted .header := by rw [← hram, put_other _ (by decide)]
  rw [hmem]
  exact ⟨hl.congr ((hsm .header (by decide)).trans hrm), hfst.congr (hsm .ram (by decide)), hmagic⟩

/-- After the planted file, a file whose header stops short of `DOLOffset` is valid. -/
theorem classify_after_planted {f : Image} (hopens : f.opens = true)
    (hlen : f.bytes.length ≤ farOffset.toNat)
    (hshort : (f.serve 0 sizeofDiskHeader 0).2.length ≤ dolOffsetAt.toNat) (m : Cells UInt8) :
    (classify bnrOffsets (afterFiles bnrOffsets m [planted]) f).1.valid = true := by
  obtain ⟨hl, hfst, hmagic⟩ := classify_planted_leaves bnrOffsets m
  have hmem : afterFiles bnrOffsets m [planted] = (classify bnrOffsets m planted).2 := by
    rw [afterFiles, List.foldl_cons, List.foldl_nil]
  rw [hmem]
  generalize (classify bnrOffsets m planted).2 = m' at hl hfst hmagic ⊢
  have hs := hl.short hshort
  have hbanner : f.bytes.length ≤ farBanner.toNat := Nat.le_trans hlen (by decide)
  have hram : (afterHeader m' f).put .ram fstBase (f.serve 1 64 farOffset).2 = afterHeader m' f := by
    rw [serve_past hlen, put_nil]
  have hsmall : (afterHeader m' f).put .smallBuf 0 (f.serve 2 32 farBanner).2 = afterHeader m' f := by
    rw [serve_past hbanner, put_nil]
  have hfst' : HasPlantedFst (afterHeader m' f) := hfst.congr (afterHeader_other m' f (by decide))
  have hmagic' : wordAt (afterHeader m' f) .smallBuf 0 = bannerMagic1 := by
    rw [wordAt_congr (afterHeader_other m' f (by decide)), hmagic]
  exact (classify_planted bnrOffsets hopens hs.dol hs.size hs.fst hram hfst' hsmall hmagic').1

/-- After the oversized file it is not. -/
theorem classify_after_oversized {f : Image} (hopens : f.opens = true)
    (hshort : (f.serve 0 sizeofDiskHeader 0).2.length ≤ dolOffsetAt.toNat) (m : Cells UInt8) :
    (classify bnrOffsets (afterFiles bnrOffsets m [oversized]) f).1.valid = false := by
  have hl := oversized_leaves m
  have hmem : afterFiles bnrOffsets m [oversized] = afterHeader m oversized := by
    have := classify_oversized bnrOffsets (f := oversized) rfl hl.dol (by rw [hl.size]; decide)
    simp only [afterFiles, List.foldl_cons, List.foldl_nil, this]
  have hs := hl.short hshort
  rw [hmem, classify_oversized bnrOffsets hopens hs.dol (by rw [hs.size]; decide)]
  rfl

end Cubiboot
