import Cubiboot.Scrambler
import Cubiboot.Lib.Pack
import Cubiboot.Lib.Overlay
import Mathlib.Data.List.Basic

/-
  The payload PicoBoot streams to the console (`make_picoboot_uf2.py`): the entry DOL,
  flattened into one image, scrambled, with a header before it and a tag behind it.

  Python's integers are natural numbers here, and what is raised is `none`. The bounds
  of the slice that takes a section in may be negative (an empty section at address 0);
  `Pack.assignSlice` is Python's assignment then.

  What is proved:
    1. `foldl_placePart` — a section in the image's range and in the file goes where it
       belongs, and an empty one nowhere: the image is zeros with the sections laid over
       it. So `flattenDol_part` and `flattenDol_zero`, for sections that are apart.
    2. `buildPayload_eq` — what a payload is made of: header, masked image, padding, tag.
    3. `picoboot_round_trip` — the scramblers agree and undo themselves, and the body
       descrambles to the image.

  Correspondence (Python ↔ Lean):
    `header`, one of its sections    ↔ `unpackDol`, `DolPart`, `dolParts`
    `dol_min`, `dol_max`             ↔ `Picoboot.dolMin`, `Picoboot.dolMax`
    `flatten_dol`                    ↔ `flattenDol`, `placePart`
    `build_payload`                  ↔ `buildPayload`
  The three `print`s of `build_payload` are left out, and so is reading the file.
-/

set_option autoImplicit false

namespace Cubiboot

namespace Picoboot

structure DolPart where
  offset : Nat
  address : Nat
  size : Nat
  deriving DecidableEq

/-- `struct.unpack(">64I", data[:256])`. -/
def unpackDol (data : List UInt8) : Option (List Nat) :=
  let header := data.take 256
  if header.length = 256 then
    some ((List.range 64).map fun i => Pack.fromBe (Pack.slice header (4 * i) (4 * i + 4)))
  else none

/-- `zip(offsets, addresses, sizes)`. -/
def dolParts (header : List Nat) : List DolPart :=
  List.zipWith3 DolPart.mk (Pack.slice header 0 18) (Pack.slice header 18 36) (Pack.slice header 36 54)

def dolMin (parts : List DolPart) : Option Nat := ((parts.map (·.address)).filter (· ≠ 0)).min?

def dolMax (parts : List DolPart) : Option Nat := (parts.map fun p => p.address + p.size).max?

/-- `img[address - dol_min:address + size - dol_min] = data[offset:offset + size]`. -/
def placePart (data : List UInt8) (dolMin : Nat) (img : List UInt8) (p : DolPart) : List UInt8 :=
  Pack.assignSlice img (p.address - dolMin) (p.address + p.size - dolMin)
    (Pack.slice data p.offset (p.offset + p.size))

/-- `dol_max` is no less than `dol_min`, so the difference is one. -/
def flattenDol (data : List UInt8) : Option (Nat × Nat × List UInt8) := do
  let header ← unpackDol data
  let entry ← header[56]?
  let dolMin ← dolMin (dolParts header)
  let dolMax ← dolMax (dolParts header)
  let img := List.replicate (dolMax - dolMin) 0
  pure (entry, dolMin, (dolParts header).foldl (placePart data dolMin) img)

/-- "IPLBOOT " and "PICO". -/
def iplboot : List UInt8 := [0x49, 0x50, 0x4C, 0x42, 0x4F, 0x4F, 0x54, 0x20]

def pico : List UInt8 := [0x50, 0x49, 0x43, 0x4F]

/-- `struct.pack("> 8s I 20x", b"IPLBOOT ", n)`. -/
def packHeader (n : Nat) : Option (List UInt8) :=
  if n < 2 ^ 32 then some (iplboot ++ Pack.be 4 n ++ List.replicate 20 0) else none

def buildPayload (exe : List UInt8) : Option (List UInt8) := do
  let (entry, load, img) ← flattenDol exe
  let entry := (entry &&& 0x017FFFFF) ||| 0x80000000
  let load := load &&& 0x017FFFFF
  if entry ≠ 0x81300000 ∨ load ≠ 0x01300000 then none
  else
    let img := (scramble (List.replicate 0x720 0 ++ img)).drop 0x720
    let img := img ++ List.replicate ((img.length + 3) / 4 * 4 - img.length) 0 ++ pico
    let header ← packHeader (img.length + 32)
    pure (header ++ img)

/-! ## The flattened image -/

/-- Where a section that is not empty goes, in an image of `len` bytes, and comes from. -/
def DolPart.Fits (data : List UInt8) (low len : Nat) (p : DolPart) : Prop :=
  p.size ≠ 0 → low ≤ p.address ∧ p.address + p.size ≤ low + len ∧ p.offset + p.size ≤ data.length

/-- The section has a byte for place `k` of the image. -/
def DolPart.At (low : Nat) (p : DolPart) (k : Nat) : Prop :=
  p.size ≠ 0 ∧ p.address ≤ low + k ∧ low + k < p.address + p.size

instance (low : Nat) (p : DolPart) (k : Nat) : Decidable (p.At low k) := inferInstanceAs (Decidable (_ ∧ _))

def DolPart.write (data : List UInt8) (low : Nat) (p : DolPart) (k : Nat) : Option (Option UInt8) :=
  if p.At low k then some data[p.offset + (low + k - p.address)]? else none

section
variable {data img : List UInt8} {low : Nat} {p : DolPart}

theorem write_at {k : Nat} (h : p.At low k) : p.write data low k = some data[p.offset + (low + k - p.address)]? :=
  if_pos h

theorem write_not {k : Nat} (h : ¬ p.At low k) : p.write data low k = none := if_neg h

theorem placePart_empty (h : p.size = 0) : placePart data low img p = img := by
  have hslice : Pack.slice data p.offset (p.offset + 0) = [] :=
    List.drop_eq_nil_of_le (by rw [List.length_take]; omega)
  rw [placePart, h, hslice, Int.natCast_zero, Int.add_zero, Pack.assignSlice_nil]

theorem placePart_fits (h : p.Fits data low img.length) :
    (placePart data low img p).length = img.length ∧
      ∀ k, (placePart data low img p)[k]? = Overlay.lay (fun k => img[k]?) (p.write data low) k := by
  rcases Nat.eq_zero_or_pos p.size with h0 | hpos
  · rw [placePart_empty h0]
    refine ⟨rfl, fun k => (Overlay.lay_of_none ?_).symm⟩
    exact write_not fun hat => hat.1 h0
  · obtain ⟨hlow, hhigh, hfile⟩ := h (by omega)
    have hlen := Pack.length_slice hfile
    have hplace : placePart data low img p = Pack.assignSlice img (p.address - low : Nat)
        (p.address - low + (Pack.slice data p.offset (p.offset + p.size)).length : Nat)
        (Pack.slice data p.offset (p.offset + p.size)) := by
      rw [placePart, hlen]
      congr 1 <;> omega
    have hroom : p.address - low + (Pack.slice data p.offset (p.offset + p.size)).length ≤ img.length := by omega
    rw [hplace]
    refine ⟨Pack.length_assignSlice hroom, fun k => ?_⟩
    rw [Pack.getElem?_assignSlice hroom, hlen]
    by_cases hat : p.At low k
    · have hlo := hat.2.1
      have hhi := hat.2.2
      rw [if_pos (by omega), Pack.getElem?_slice, if_pos (by omega)]
      refine (Overlay.lay_of_some ?_).symm
      rw [write_at hat]
      congr 2
      omega
    · rw [if_neg fun hk => hat ⟨by omega, by omega, by omega⟩]
      exact (Overlay.lay_of_none (write_not hat)).symm

/-- The sections laid over the image one after the other. -/
theorem foldl_placePart : ∀ (parts : List DolPart) (img : List UInt8), (∀ p ∈ parts, p.Fits data low img.length) →
    (parts.foldl (placePart data low) img).length = img.length ∧
      ∀ k, (parts.foldl (placePart data low) img)[k]? =
        Overlay.layAll (fun k => img[k]?) (parts.map (DolPart.write data low)) k
  | [], _, _ => ⟨rfl, fun _ => rfl⟩
  | p :: parts, img, h => by
    obtain ⟨hlen, hat⟩ := placePart_fits (h p List.mem_cons_self)
    have hrest : ∀ q ∈ parts, q.Fits data low (placePart data low img p).length := by
      rw [hlen]
      exact fun q hq => h q (List.mem_cons_of_mem p hq)
    obtain ⟨hlen', hat'⟩ := foldl_placePart parts _ hrest
    refine ⟨hlen'.trans hlen, fun k => ?_⟩
    rw [List.foldl_cons, hat', funext hat]
    rfl

theorem dolMin_le {parts : List DolPart} (h : dolMin parts = some low) (hp : p ∈ parts) (h0 : p.address ≠ 0) :
    low ≤ p.address := by
  apply (List.min?_eq_some_iff.mp h).2
  exact List.mem_filter.mpr ⟨List.mem_map_of_mem hp, decide_eq_true h0⟩

theorem le_dolMax {parts : List DolPart} {high : Nat} (h : dolMax parts = some high) (hp : p ∈ parts) :
    p.address + p.size ≤ high :=
  (List.max?_eq_some_iff.mp h).2 _ (List.mem_map_of_mem hp)

theorem dolMin_le_dolMax {parts : List DolPart} {high : Nat} (h : dolMin parts = some low)
    (h' : dolMax parts = some high) : low ≤ high := by
  obtain ⟨p, hp, hlow⟩ := List.mem_map.mp (List.mem_of_mem_filter (List.min?_eq_some_iff.mp h).1)
  have := le_dolMax h' hp
  omega

end

/-! ## Sections that are apart -/

/-- The sections of a file, where it has a header. -/
def fileParts (exe : List UInt8) : List DolPart := ((unpackDol exe).map dolParts).getD []

/-- Those that are not empty have an address, lie inside the file and are apart. -/
structure SectionsSound (exe : List UInt8) : Prop where
  address : ∀ p ∈ fileParts exe, p.size ≠ 0 → p.address ≠ 0
  inside : ∀ p ∈ fileParts exe, p.size ≠ 0 → p.offset + p.size ≤ exe.length
  apart : (fileParts exe).Pairwise fun p q => p.size ≠ 0 → q.size ≠ 0 →
    p.address + p.size ≤ q.address ∨ q.address + q.size ≤ p.address

section
variable {exe img : List UInt8} {entry low : Nat}

theorem flattenDol_eq (h : flattenDol exe = some (entry, low, img)) : ∃ high,
    dolMin (fileParts exe) = some low ∧ dolMax (fileParts exe) = some high ∧
      img = (fileParts exe).foldl (placePart exe low) (List.replicate (high - low) 0) := by
  rw [flattenDol] at h
  simp only [Option.bind_eq_bind, Option.bind_eq_some_iff, Option.pure_def, Option.some.injEq,
    Prod.mk.injEq] at h
  obtain ⟨header, hheader, _, -, low, hlow, high, hhigh, -, rfl, rfl⟩ := h
  have hparts : fileParts exe = dolParts header := by rw [fileParts, hheader]; rfl
  rw [hparts]
  exact ⟨high, hlow, hhigh, rfl⟩

theorem fileParts_fits {high : Nat} (hs : SectionsSound exe) (hlow : dolMin (fileParts exe) = some low)
    (hhigh : dolMax (fileParts exe) = some high) :
    ∀ p ∈ fileParts exe, p.Fits exe low (List.replicate (high - low) (0 : UInt8)).length := by
  intro p hp h0
  have h1 := dolMin_le hlow hp (hs.address p hp h0)
  have h2 := le_dolMax hhigh hp
  have h3 := dolMin_le_dolMax hlow hhigh
  rw [List.length_replicate]
  exact ⟨h1, by omega, hs.inside p hp h0⟩

theorem flattenDol_length (hs : SectionsSound exe) (h : flattenDol exe = some (entry, low, img)) :
    ∃ high, dolMin (fileParts exe) = some low ∧ dolMax (fileParts exe) = some high ∧ img.length = high - low := by
  obtain ⟨high, hlow, hhigh, rfl⟩ := flattenDol_eq h
  refine ⟨high, hlow, hhigh, ?_⟩
  rw [(foldl_placePart _ _ (fileParts_fits hs hlow hhigh)).1, List.length_replicate]

/-- The sections' writes are apart. -/
theorem writes_apart (hs : SectionsSound exe) (low : Nat) :
    ((fileParts exe).map (DolPart.write exe low)).Pairwise Overlay.Apart := by
  rw [List.pairwise_map]
  refine hs.apart.imp fun {p q} hpq k => ?_
  by_cases hp : p.At low k
  · right
    apply write_not
    intro hq
    have := hpq hp.1 hq.1
    have := hp.2
    have := hq.2
    omega
  · exact .inl (write_not hp)

/-- Each section's bytes stand where it belongs. -/
theorem flattenDol_part (hs : SectionsSound exe) (h : flattenDol exe = some (entry, low, img)) {p : DolPart}
    (hp : p ∈ fileParts exe) {k : Nat} (hat : p.At low k) : img[k]? = exe[p.offset + (low + k - p.address)]? := by
  obtain ⟨high, hlow, hhigh, rfl⟩ := flattenDol_eq h
  rw [(foldl_placePart _ _ (fileParts_fits hs hlow hhigh)).2]
  exact Overlay.layAll_of_mem (writes_apart hs low) (List.mem_map_of_mem hp) (write_at hat)

theorem flattenDol_slice (hs : SectionsSound exe) (h : flattenDol exe = some (entry, low, img)) {p : DolPart}
    (hp : p ∈ fileParts exe) (h0 : p.size ≠ 0) : low ≤ p.address ∧
      Pack.slice img (p.address - low) (p.address - low + p.size) = Pack.slice exe p.offset (p.offset + p.size) := by
  obtain ⟨high, hlow, -, -⟩ := flattenDol_eq h
  have hmin := dolMin_le hlow hp (hs.address p hp h0)
  refine ⟨hmin, List.ext_getElem? fun k => ?_⟩
  rw [Pack.getElem?_slice, Pack.getElem?_slice]
  by_cases hk : k < p.size
  · have hplace : low + (p.address - low + k) - p.address = k := by omega
    rw [if_pos (by omega), if_pos (by omega), flattenDol_part hs h hp ⟨h0, by omega, by omega⟩, hplace]
  · rw [if_neg (by omega), if_neg (by omega)]

/-- And what no section has a byte for is zero. -/
theorem flattenDol_zero (hs : SectionsSound exe) (h : flattenDol exe = some (entry, low, img)) {k : Nat}
    (hk : k < img.length) (hat : ∀ p ∈ fileParts exe, ¬ p.At low k) : img[k]? = some 0 := by
  obtain ⟨high, hlow, hhigh, rfl⟩ := flattenDol_eq h
  have hfold := foldl_placePart _ _ (fileParts_fits hs hlow hhigh)
  rw [hfold.1, List.length_replicate] at hk
  rw [hfold.2, Overlay.layAll_of_none]
  · rw [List.getElem?_replicate, if_pos hk]
  · intro w hw
    obtain ⟨p, hp, rfl⟩ := List.mem_map.mp hw
    exact write_not (hat p hp)

end

/-! ## The payload -/

/-- The image with the keys from 0x720 bytes on. -/
def streamed (img : List UInt8) : List UInt8 := Keystream.mask (fun i => bs2Key (0x720 + i)) img

/-- Up to the next multiple of four. -/
def padding (n : Nat) : Nat := (n + 3) / 4 * 4 - n

def payloadSize (n : Nat) : Nat := 32 + n + padding n + 4

def payloadOf (img : List UInt8) : List UInt8 :=
  iplboot ++ Pack.be 4 (payloadSize img.length) ++ List.replicate 20 0 ++
    (streamed img ++ List.replicate (padding img.length) 0 ++ pico)

@[simp] theorem length_streamed (img : List UInt8) : (streamed img).length = img.length :=
  Keystream.length_mask _ img

theorem buildPayload_eq_some {exe payload : List UInt8} : buildPayload exe = some payload ↔
    ∃ entry low img, flattenDol exe = some (entry, low, img) ∧ (entry &&& 0x017FFFFF) ||| 0x80000000 = 0x81300000 ∧
      low &&& 0x017FFFFF = 0x01300000 ∧ payloadSize img.length < 2 ^ 32 ∧ payload = payloadOf img := by
  have hsize : ∀ img : List UInt8, (streamed img ++ List.replicate (padding img.length) 0 ++ pico).length + 32 =
      payloadSize img.length := by
    intro img
    rw [List.length_append, List.length_append, length_streamed, List.length_replicate, payloadSize]
    show _ + 4 + 32 = _
    omega
  have hprimed : ∀ img : List UInt8, (scramble (List.replicate 0x720 0 ++ img)).drop 0x720 = streamed img :=
    fun img => scramble_primed 0x720 img
  have hpadding : ∀ img : List UInt8, ((streamed img).length + 3) / 4 * 4 - (streamed img).length =
      padding img.length := by
    intro img
    rw [length_streamed, padding]
  rw [buildPayload]
  constructor
  · intro h
    obtain ⟨⟨entry, low, img⟩, hflat, h⟩ := Option.bind_eq_some_iff.mp h
    simp only [hprimed, hpadding, hsize] at h
    split at h
    next => cases h
    next hlinked =>
      obtain ⟨header, hheader, h⟩ := Option.bind_eq_some_iff.mp h
      rw [packHeader] at hheader
      split at hheader
      next hfits =>
        cases hheader
        cases h
        have hentry := not_or.mp hlinked
        exact ⟨entry, low, img, hflat, not_not.mp hentry.1, not_not.mp hentry.2, hfits, rfl⟩
      next => cases hheader
  · rintro ⟨entry, low, img, hflat, hentry, hlow, hfits, rfl⟩
    rw [hflat]
    simp only [Option.bind_eq_bind, Option.bind_some, hprimed, hpadding, hsize, packHeader]
    rw [if_neg (by rw [hentry, hlow]; simp), if_pos hfits]
    rfl

section
variable (img : List UInt8)

theorem length_payloadOf : (payloadOf img).length = payloadSize img.length := by
  simp only [payloadOf, List.length_append, Pack.length_be, List.length_replicate, length_streamed, payloadSize]
  show 8 + 4 + 20 + (_ + _ + 4) = _
  omega

/-- The header is 32 bytes. -/
theorem payloadOf_drop : (payloadOf img).drop 32 = streamed img ++ List.replicate (padding img.length) 0 ++ pico := by
  rw [payloadOf, List.drop_left']
  rfl

theorem payloadOf_size (h : payloadSize img.length < 2 ^ 32) :
    Pack.fromBe (Pack.slice (payloadOf img) 8 12) = (payloadOf img).length := by
  have hslice : Pack.slice (payloadOf img) 8 12 = Pack.be 4 (payloadSize img.length) := rfl
  rw [hslice, Pack.fromBe_be h, length_payloadOf]

/-- The scrambler from 0x720 bytes earlier on gives the image back. -/
theorem payloadOf_body :
    (scramble (List.replicate 0x720 0 ++ ((payloadOf img).drop 32).take img.length)).drop 0x720 = img := by
  rw [payloadOf_drop, List.append_assoc, List.take_left' (length_streamed img), scramble_primed, streamed,
    Keystream.mask_mask]

theorem payloadOf_tail : (payloadOf img).drop (32 + img.length) = List.replicate (padding img.length) 0 ++ pico := by
  rw [← List.drop_drop, payloadOf_drop, List.append_assoc, List.drop_left' (length_streamed img)]

end

/-- The scramblers' loops end, and they are one function and its own inverse. A payload's
body, descrambled with the keystream started 0x720 bytes earlier, is the image: each
section's bytes at its address less the lowest, zeros elsewhere. The size field is the
payload's length, and the tag follows the body at the next multiple of four. -/
theorem picoboot_round_trip :
    (∀ data, (scrambleLoop data).it = data.length) ∧
    (∀ data size, (descramblerLoop data size).it = size) ∧
    (∀ data, scramble (scramble data) = data) ∧
    (∀ data, Iplscramble.scramble data = scramble data) ∧
    (∀ data size, descrambler data size = scramble (data.take size.toNat) ++ data.drop size.toNat) ∧
    ∀ exe payload, buildPayload exe = some payload → SectionsSound exe →
      ∃ low high, dolMin (fileParts exe) = some low ∧ dolMax (fileParts exe) = some high ∧
        (let img := (scramble (List.replicate 0x720 0 ++ (payload.drop 32).take (high - low))).drop 0x720
        img.length = high - low ∧
        (∀ p ∈ fileParts exe, p.size ≠ 0 → low ≤ p.address ∧
          Pack.slice img (p.address - low) (p.address - low + p.size) = Pack.slice exe p.offset (p.offset + p.size)) ∧
        ∀ k < high - low, (∀ p ∈ fileParts exe, p.size ≠ 0 → ¬ (p.address ≤ low + k ∧ low + k < p.address + p.size)) →
          img[k]? = some 0) ∧
        Pack.fromBe (Pack.slice payload 8 12) = payload.length ∧
        ∃ n < 4, (32 + (high - low) + n) % 4 = 0 ∧ payload.drop (32 + (high - low)) = List.replicate n 0 ++ pico := by
  refine ⟨fun data => ?_, fun data size => (descramblerLoop_eq data size).1, fun data => ?_, fun _ => rfl,
    descrambler_eq, ?_⟩
  · rw [scrambleLoop_eq]
  · rw [scramble_eq, scramble_eq, Keystream.mask_mask]
  · intro exe payload h hs
    obtain ⟨entry, low, img, hflat, -, -, hfits, rfl⟩ := buildPayload_eq_some.mp h
    obtain ⟨high, hlow, hhigh, hlen⟩ := flattenDol_length hs hflat
    refine ⟨low, high, hlow, hhigh, ?_, payloadOf_size img hfits, padding img.length, ?_, ?_, ?_⟩
    · rw [← hlen, payloadOf_body]
      refine ⟨rfl, fun p hp h0 => flattenDol_slice hs hflat hp h0, ?_⟩
      intro k hk hat
      exact flattenDol_zero hs hflat hk fun p hp hp' => hat p hp hp'.1 hp'.2
    · rw [padding]
      omega
    · rw [← hlen, padding]
      omega
    · rw [← hlen, payloadOf_tail]

/-- A file with sections of four and three bytes, four bytes apart; the others are empty and
have no address. -/
def gapDol : List UInt8 :=
  Pack.be 4 0x100 ++ Pack.be 4 0x104 ++ List.replicate 64 0 ++
    (Pack.be 4 0x81300000 ++ Pack.be 4 0x81300008 ++ List.replicate 64 0) ++
    (Pack.be 4 4 ++ Pack.be 4 3 ++ List.replicate 72 0) ++ Pack.be 4 0x81300000 ++ List.replicate 28 0 ++
    [1, 2, 3, 4, 5, 6, 7]

theorem flattenDol_gapDol : flattenDol gapDol = some (0x81300000, 0x81300000, [1, 2, 3, 4, 0, 0, 0, 0, 5, 6, 7]) := by
  decide +kernel

theorem gapDol_sound : SectionsSound gapDol where
  address := by decide +kernel
  inside := by decide +kernel
  apart := by decide +kernel

/-- Its payload: both sections where they belong, the gap, the size field, and the tag. -/
theorem picoboot_round_trip_gap : ∃ payload, buildPayload gapDol = some payload ∧
    (let img := (scramble (List.replicate 0x720 0 ++ (payload.drop 32).take 11)).drop 0x720
    img.length = 11 ∧ Pack.slice img 0 4 = [1, 2, 3, 4] ∧ Pack.slice img 8 11 = [5, 6, 7] ∧
      ∀ k, 4 ≤ k → k < 8 → img[k]? = some 0) ∧
    Pack.fromBe (Pack.slice payload 8 12) = payload.length ∧
    ∃ n < 4, (32 + 11 + n) % 4 = 0 ∧ payload.drop (32 + 11) = List.replicate n 0 ++ pico := by
  have hbuild : buildPayload gapDol = some (payloadOf [1, 2, 3, 4, 0, 0, 0, 0, 5, 6, 7]) :=
    buildPayload_eq_some.mpr ⟨_, _, _, flattenDol_gapDol, by decide, by decide, by decide, rfl⟩
  obtain ⟨low, high, hlow, hhigh, ⟨hlen, hparts, hzero⟩, hsize, htail⟩ :=
    picoboot_round_trip.2.2.2.2.2 gapDol _ hbuild gapDol_sound
  obtain rfl : 0x81300000 = low := Option.some.inj ((by decide +kernel : some _ = _).trans hlow)
  obtain rfl : 0x8130000B = high := Option.some.inj ((by decide +kernel : some _ = _).trans hhigh)
  have hfirst := (hparts ⟨0x100, 0x81300000, 4⟩ (by decide +kernel) (by decide)).2
  have hsecond := (hparts ⟨0x104, 0x81300008, 3⟩ (by decide +kernel) (by decide)).2
  refine ⟨_, hbuild, ⟨hlen, hfirst.trans (by decide +kernel), hsecond.trans (by decide +kernel), ?_⟩, hsize, htail⟩
  intro k hk hlt
  refine hzero k (by omega) fun p hp h0 hat => ?_
  -- neither section reaches into the gap
  have hall : ∀ p ∈ fileParts gapDol, p.size ≠ 0 →
      p.address + p.size ≤ 0x81300004 ∨ 0x81300008 ≤ p.address := by decide +kernel
  have hapart := hall p hp h0
  omega

end Picoboot

end Cubiboot
