import Cubiboot.Lib.Lanes
import Cubiboot.Lib.Pack
import Cubiboot.Lib.Overlay
import Mathlib.Data.List.Basic

/-
  PicoLoader's firmware and a payload in one UF2 file (`make_picoloader_uf2.py`): the
  firmware's blocks are read, the payload is cut into blocks for both families, and all
  of them are written again, the families in turn and each numbered by itself.

  A UF2 file is sectors of 512 bytes. A block has up to 476 bytes of data, which is what
  `parse_uf2` keeps; `emit` writes the first 256 of them. Python's integers are natural
  numbers here, what is raised is `none`, and a dict is its lanes in order (`Lib.Lanes`)
  or, for the counters, the function `get(fam, 0)`.

  What is proved:
    1. `parseUf2_eq` — a file is read sector by sector, up to what is left at its end.
    2. `packBlock_eq_some`, `readBlock_sector` — a block is written if its words fit, and
       read again as its first 256 bytes.
    3. `emit_eq_some` — `emit` succeeds where there is a block and all of them fit, and
       what each family's sectors hold then.
    4. `flash_payload` — the payload's blocks, one after the other, are the payload.
    5. `merged_iff` — a family's blocks are the input's, with their numbers in order and
       their count, and its flash is the firmware's under the payload, exactly when no
       firmware block has more than 256 bytes, there is a block, and addresses and counts
       fit their words.

  Correspondence (Python ↔ Lean):
    a block's dict, `struct.unpack_from("<8I", ..)` ↔ `Uf2Block`, `unpackWords`
    `parse_uf2`                                     ↔ `parseUf2`, `parseSectors`, `readBlock`
    `make_payload_blocks`                           ↔ `makePayloadBlocks`
    `interleave_families`                           ↔ `interleaveFamilies`
    `emit`, a pass of its second loop               ↔ `emit`, `emitBlocks`, `packBlock`
  `main` is `emit(parse_uf2(firmware) + make_payload_blocks(payload))` and its files.
-/

set_option autoImplicit false

namespace Cubiboot

namespace Picoloader

def uf2Magic0 : Nat := 0x0A324655

def uf2Magic1 : Nat := 0x9E5D5157

def uf2MagicEnd : Nat := 0x0AB16F30

def uf2FlagFamily : Nat := 0x00002000

/-- `PAYLOAD_SIZE`, data bytes for each block. -/
def blockSize : Nat := 256

def payloadBase : Nat := 0x10031000

def families : List Nat := [0xE48BFF56, 0xE48BFF59]

structure Uf2Block where
  flags : Nat
  addr : Nat
  fam : Nat
  data : List UInt8
  deriving DecidableEq

structure Uf2Words where
  m0 : Nat
  m1 : Nat
  flags : Nat
  addr : Nat
  size : Nat
  bno : Nat
  nblk : Nat
  fam : Nat
  deriving DecidableEq

/-! ## Reading -/

def wordAt (blk : List UInt8) (i : Nat) : Nat := Pack.fromLe (Pack.slice blk (4 * i) (4 * i + 4))

/-- `struct.unpack_from("<8I", blk, 0)`. -/
def unpackWords (blk : List UInt8) : Uf2Words where
  m0 := wordAt blk 0
  m1 := wordAt blk 1
  flags := wordAt blk 2
  addr := wordAt blk 3
  size := wordAt blk 4
  bno := wordAt blk 5
  nblk := wordAt blk 6
  fam := wordAt blk 7

def blockOf (blk : List UInt8) : Uf2Block :=
  let w := unpackWords blk
  ⟨w.flags, w.addr, w.fam, Pack.slice blk 32 (32 + w.size)⟩

def readBlock (blk : List UInt8) : Option Uf2Block :=
  let w := unpackWords blk
  if w.m0 ≠ uf2Magic0 ∨ w.m1 ≠ uf2Magic1 then none else some (blockOf blk)

/-- The loop of `parse_uf2` over what it cuts out; the first short piece ends it. -/
def parseSectors : List (List UInt8) → Option (List Uf2Block)
  | [] => some []
  | blk :: rest =>
    if blk.length < 512 then some []
    else do
      let b ← readBlock blk
      let blocks ← parseSectors rest
      pure (b :: blocks)

def parseUf2 (data : List UInt8) : Option (List Uf2Block) :=
  parseSectors ((List.range ((data.length + 511) / 512)).map fun k => Pack.slice data (512 * k) (512 * k + 512))

/-! ## Writing -/

/-- The payload's block number `i`. -/
def piece (payload : List UInt8) (fam i : Nat) : Uf2Block where
  flags := uf2FlagFamily
  addr := payloadBase + i * blockSize
  fam := fam
  data := Pack.slice payload (i * blockSize) ((i + 1) * blockSize)

def payloadBlocks (payload : List UInt8) (fam : Nat) : List Uf2Block :=
  (List.range ((payload.length + blockSize - 1) / blockSize)).map (piece payload fam)

def makePayloadBlocks (payload : List UInt8) : List Uf2Block := families.flatMap (payloadBlocks payload)

/-- `max` raises on no lanes at all. -/
def interleaveFamilies (blocks : List Uf2Block) : Option (List Uf2Block) :=
  Lanes.roundRobin ((Lanes.group Uf2Block.fam blocks).map Prod.snd)

/-- `struct.pack("<8I", ..)`. -/
def packWords (ws : List Nat) : Option (List UInt8) :=
  if ∀ w ∈ ws, w < 2 ^ 32 then some (ws.flatMap (Pack.le 4)) else none

/-- A block as it is written; the `assert` is the last test. -/
def packBlock (b : Uf2Block) (bno nblk : Nat) : Option (List UInt8) := do
  let data := b.data.take blockSize
  let blk ← packWords [uf2Magic0, uf2Magic1, b.flags ||| uf2FlagFamily, b.addr, data.length, bno, nblk, b.fam]
  let blk := blk ++ (data ++ List.replicate (476 - data.length) 0)
  let blk := blk ++ Pack.le 4 uf2MagicEnd
  if blk.length = 512 then some blk else none

def emitBlocks (counts : Nat → Nat) : (Nat → Nat) → List Uf2Block → List UInt8 → Option (List UInt8)
  | _, [], out => some out
  | idx, b :: blocks, out => do
    let bno := idx b.fam
    let blk ← packBlock b bno (counts b.fam)
    emitBlocks counts (Function.update idx b.fam (bno + 1)) blocks (out ++ blk)

def emit (blocks : List Uf2Block) : Option (List UInt8) := do
  let blocks ← interleaveFamilies blocks
  emitBlocks (Lanes.tally Uf2Block.fam blocks) (fun _ => 0) blocks []

/-! ## Sectors -/

theorem mapM_eq_map {α β : Type*} {f : α → Option β} {g : α → β} : ∀ {xs : List α}, (∀ x ∈ xs, f x = some (g x)) →
    xs.mapM f = some (xs.map g)
  | [], _ => rfl
  | x :: xs, h => by
    rw [List.mapM_cons, h x List.mem_cons_self, mapM_eq_map fun y hy => h y (List.mem_cons_of_mem x hy)]
    rfl

theorem parseSectors_full : ∀ (full tail : List (List UInt8)), (∀ blk ∈ full, ¬ blk.length < 512) →
    (∀ blk ∈ tail, blk.length < 512) → parseSectors (full ++ tail) = full.mapM readBlock
  | [], [], _, _ => rfl
  | [], blk :: tail, _, h => if_pos (h blk List.mem_cons_self)
  | blk :: full, tail, hfull, htail => by
    rw [List.cons_append, parseSectors, if_neg (hfull blk List.mem_cons_self), List.mapM_cons,
      parseSectors_full full tail (fun b hb => hfull b (List.mem_cons_of_mem blk hb)) htail]

theorem chunk_length {data blk : List UInt8} (h : blk ∈ Pack.chunks 512 data) : blk.length = 512 := by
  obtain ⟨k, hk, rfl⟩ := List.mem_map.mp h
  have := List.mem_range.mp hk
  exact Pack.length_slice (by omega)

theorem parseUf2_eq (data : List UInt8) : parseUf2 data = (Pack.chunks 512 data).mapM readBlock := by
  have hfull : ∀ blk ∈ Pack.chunks 512 data, ¬ blk.length < 512 := by
    intro blk hblk
    rw [chunk_length hblk]
    exact Nat.lt_irrefl 512
  rcases Nat.eq_zero_or_pos (data.length % 512) with h0 | hpos
  · have hcount : (data.length + 511) / 512 = data.length / 512 := by omega
    rw [parseUf2, hcount]
    exact (congrArg parseSectors (List.append_nil _).symm).trans
      (parseSectors_full _ [] hfull fun _ h => absurd h List.not_mem_nil)
  · have hcount : (data.length + 511) / 512 = data.length / 512 + 1 := by omega
    rw [parseUf2, hcount, List.range_succ, List.map_append]
    apply parseSectors_full _ _ hfull
    intro blk hblk
    obtain rfl := List.mem_singleton.mp hblk
    show ((data.take _).drop _).length < 512
    rw [List.length_drop, List.length_take]
    omega

/-! ## A block written and read again -/

def Uf2Block.words (b : Uf2Block) (bno nblk : Nat) : List Nat :=
  [uf2Magic0, uf2Magic1, b.flags ||| uf2FlagFamily, b.addr, (b.data.take blockSize).length, bno, nblk, b.fam]

/-- The sector a block becomes. -/
def Uf2Block.sector (b : Uf2Block) (bno nblk : Nat) : List UInt8 :=
  (b.words bno nblk).flatMap (Pack.le 4) ++
    (b.data.take blockSize ++ List.replicate (476 - (b.data.take blockSize).length) 0) ++ Pack.le 4 uf2MagicEnd

/-- The block that is read from it. -/
def Uf2Block.emitted (b : Uf2Block) : Uf2Block :=
  { b with flags := b.flags ||| uf2FlagFamily, data := b.data.take blockSize }

/-- Its first eight words. -/
def Uf2Block.header (b : Uf2Block) (bno nblk : Nat) : Uf2Words where
  m0 := uf2Magic0
  m1 := uf2Magic1
  flags := b.flags ||| uf2FlagFamily
  addr := b.addr
  size := (b.data.take blockSize).length
  bno := bno
  nblk := nblk
  fam := b.fam

def Uf2Block.WordsFit (b : Uf2Block) (bno nblk : Nat) : Prop := ∀ w ∈ b.words bno nblk, w < 2 ^ 32

section
variable (b : Uf2Block) (bno nblk : Nat)

theorem length_take_blockSize : (b.data.take blockSize).length ≤ 256 := by
  rw [List.length_take]
  exact Nat.min_le_left _ _

theorem length_sector : (b.sector bno nblk).length = 512 := by
  have hdata := length_take_blockSize b
  have hwords : ((b.words bno nblk).flatMap (Pack.le 4)).length = 32 := rfl
  rw [Uf2Block.sector, List.length_append, List.length_append, hwords, List.length_append, List.length_replicate,
    Pack.length_le]
  omega

theorem packWords_eq_some {ws : List Nat} {out : List UInt8} :
    packWords ws = some out ↔ (∀ w ∈ ws, w < 2 ^ 32) ∧ out = ws.flatMap (Pack.le 4) := by
  rw [packWords]
  split
  next h => exact ⟨fun heq => ⟨h, (Option.some.inj heq).symm⟩, fun heq => congrArg some heq.2.symm⟩
  next h => exact ⟨fun heq => absurd heq (Option.some_ne_none out).symm, fun heq => absurd heq.1 h⟩

theorem packBlock_eq_some {blk : List UInt8} :
    packBlock b bno nblk = some blk ↔ b.WordsFit bno nblk ∧ blk = b.sector bno nblk := by
  have hlen := length_sector b bno nblk
  constructor
  · intro h
    obtain ⟨ws, hws, h⟩ := Option.bind_eq_some_iff.mp h
    obtain ⟨hfit, rfl⟩ := packWords_eq_some.mp hws
    exact ⟨hfit, (Option.some.inj ((if_pos hlen).symm.trans h)).symm⟩
  · rintro ⟨hfit, rfl⟩
    exact Option.bind_eq_some_iff.mpr ⟨_, packWords_eq_some.mpr ⟨hfit, rfl⟩, if_pos hlen⟩

variable {b bno nblk}

/-- The words of a sector are read back. -/
theorem unpackWords_sector (h : b.WordsFit bno nblk) : unpackWords (b.sector bno nblk) = b.header bno nblk := by
  have hfit : ∀ w ∈ b.words bno nblk, Pack.fromLe (Pack.le 4 w) = w := fun w hw => Pack.fromLe_le (h w hw)
  have hslice : ∀ i : Fin 8, wordAt (b.sector bno nblk) i = (b.words bno nblk).get i := by
    intro i
    rw [← hfit _ (List.get_mem (b.words bno nblk) i), wordAt]
    congr 1
    match i with
    | 0 | 1 | 2 | 3 | 4 | 5 | 6 | 7 => rfl
  rw [unpackWords, Uf2Block.header, Uf2Words.mk.injEq]
  exact ⟨hslice 0, hslice 1, hslice 2, hslice 3, hslice 4, hslice 5, hslice 6, hslice 7⟩

theorem readBlock_sector (h : b.WordsFit bno nblk) : readBlock (b.sector bno nblk) = some b.emitted := by
  have hdata : Pack.slice (b.sector bno nblk) 32 (32 + (b.data.take blockSize).length) = b.data.take blockSize := by
    have hwords : ((b.words bno nblk).flatMap (Pack.le 4)).length = 32 := rfl
    rw [Uf2Block.sector, List.append_assoc, List.append_assoc, ← Nat.add_zero 32, Nat.add_assoc,
      Pack.slice_append _ hwords, Nat.zero_add, Pack.slice_head _ rfl]
  rw [readBlock, blockOf, unpackWords_sector h, Uf2Block.header, if_neg (by simp), hdata]
  rfl

end

/-! ## The file that is written -/

/-- The sectors of numbered blocks, each with its family's count. -/
def sectors (counts : Nat → Nat) (numbered : List (Nat × Uf2Block)) : List (List UInt8) :=
  numbered.map fun e => e.2.sector e.1 (counts e.2.fam)

def AllFit (counts : Nat → Nat) (numbered : List (Nat × Uf2Block)) : Prop :=
  ∀ e ∈ numbered, e.2.WordsFit e.1 (counts e.2.fam)

theorem emitBlocks_eq_some {counts : Nat → Nat} : ∀ {blocks : List Uf2Block} {idx : Nat → Nat} {out out' : List UInt8},
    emitBlocks counts idx blocks out = some out' ↔ AllFit counts (Lanes.number Uf2Block.fam idx blocks) ∧
      out' = out ++ (sectors counts (Lanes.number Uf2Block.fam idx blocks)).flatten
  | [], idx, out, out' => by
    have hnone : AllFit counts (Lanes.number Uf2Block.fam idx []) := fun _ he => absurd he List.not_mem_nil
    have hout : out ++ (sectors counts (Lanes.number Uf2Block.fam idx [])).flatten = out := List.append_nil out
    rw [hout]
    exact ⟨fun h => ⟨hnone, (Option.some.inj h).symm⟩, fun h => congrArg some h.2.symm⟩
  | b :: blocks, idx, out, out' => by
    have hflat : ∀ idx', out ++ (b.sector (idx b.fam) (counts b.fam) :: sectors counts idx').flatten =
        out ++ b.sector (idx b.fam) (counts b.fam) ++ (sectors counts idx').flatten := by
      intro idx'
      rw [List.flatten_cons, List.append_assoc]
    constructor
    · intro h
      obtain ⟨blk, hblk, h⟩ := Option.bind_eq_some_iff.mp h
      obtain ⟨hfit, rfl⟩ := (packBlock_eq_some b _ _).mp hblk
      obtain ⟨hrest, rfl⟩ := emitBlocks_eq_some.mp h
      exact ⟨List.forall_mem_cons.mpr ⟨hfit, hrest⟩, (hflat _).symm⟩
    · rintro ⟨hfit, rfl⟩
      obtain ⟨hb, hrest⟩ := List.forall_mem_cons.mp hfit
      refine Option.bind_eq_some_iff.mpr ⟨_, (packBlock_eq_some b _ _).mpr ⟨hb, rfl⟩, ?_⟩
      exact emitBlocks_eq_some.mpr ⟨hrest, hflat _⟩

/-- Blocks in the order they are dealt out, numbered. -/
def numbered (dealt : List Uf2Block) : List (Nat × Uf2Block) := Lanes.number Uf2Block.fam (fun _ => 0) dealt

theorem emit_eq_some {blocks : List Uf2Block} {out : List UInt8} : emit blocks = some out ↔
    ∃ dealt, interleaveFamilies blocks = some dealt ∧ AllFit (Lanes.tally Uf2Block.fam dealt) (numbered dealt) ∧
      out = (sectors (Lanes.tally Uf2Block.fam dealt) (numbered dealt)).flatten := by
  rw [emit]
  constructor
  · intro h
    obtain ⟨dealt, hdealt, h⟩ := Option.bind_eq_some_iff.mp h
    exact ⟨dealt, hdealt, emitBlocks_eq_some.mp h⟩
  · rintro ⟨dealt, hdealt, h⟩
    exact Option.bind_eq_some_iff.mpr ⟨dealt, hdealt, emitBlocks_eq_some.mpr h⟩

section
variable {counts : Nat → Nat} {es : List (Nat × Uf2Block)}

theorem chunks_sectors : Pack.chunks 512 (sectors counts es).flatten = sectors counts es := by
  apply Pack.chunks_flatten (by decide)
  intro blk hblk
  obtain ⟨e, -, rfl⟩ := List.mem_map.mp hblk
  exact length_sector _ _ _

/-- What `parse_uf2` reads again. -/
theorem parseUf2_sectors (h : AllFit counts es) :
    parseUf2 (sectors counts es).flatten = some (es.map fun e => e.2.emitted) := by
  rw [parseUf2_eq, chunks_sectors, sectors, List.mapM_map]
  exact mapM_eq_map fun e he => readBlock_sector (h e he)

/-- The number and the count in each of a family's sectors. -/
def blockNumbers (data : List UInt8) (fam : Nat) : List (Nat × Nat) :=
  (((Pack.chunks 512 data).map unpackWords).filter fun w => w.fam = fam).map fun w => (w.bno, w.nblk)

theorem blockNumbers_sectors (h : AllFit counts es) (fam : Nat) :
    blockNumbers (sectors counts es).flatten fam =
      ((es.filter fun e => e.2.fam = fam).map Prod.fst).map fun bno => (bno, counts fam) := by
  have hwords : (sectors counts es).map unpackWords = es.map fun e => e.2.header e.1 (counts e.2.fam) := by
    rw [sectors, List.map_map]
    exact List.map_congr_left fun e he => unpackWords_sector (h e he)
  rw [blockNumbers, chunks_sectors, hwords, List.filter_map, List.map_map, List.map_map]
  apply List.map_congr_left
  intro e he
  have hfam : e.2.fam = fam := of_decide_eq_true (List.mem_filter.mp he).2
  simp only [Function.comp_apply, Uf2Block.header, hfam]

end

/-! ## Flash -/

/-- What a block puts at an address. -/
def Uf2Block.write (b : Uf2Block) (a : Nat) : Option (Option UInt8) :=
  if b.addr ≤ a ∧ a < b.addr + b.data.length then some b.data[a - b.addr]? else none

/-- The flash after blocks have been written to it in order. -/
def flash (blocks : List Uf2Block) : Nat → Option UInt8 :=
  Overlay.layAll (fun _ => none) (blocks.map Uf2Block.write)

theorem length_piece (payload : List UInt8) (fam i : Nat) :
    (piece payload fam i).data.length = min ((i + 1) * blockSize) payload.length - i * blockSize := by
  rw [piece, Pack.slice, List.length_drop, List.length_take]

theorem piece_write (payload : List UInt8) (fam i a : Nat) : (piece payload fam i).write a =
    if payloadBase + i * blockSize ≤ a ∧ a < payloadBase + min ((i + 1) * blockSize) payload.length then
      some payload[a - payloadBase]? else none := by
  have haddr : (piece payload fam i).addr = payloadBase + i * blockSize := rfl
  have hlen := length_piece payload fam i
  by_cases hin : payloadBase + i * blockSize ≤ a ∧ a < payloadBase + min ((i + 1) * blockSize) payload.length
  · have hplace : i * blockSize + (a - (payloadBase + i * blockSize)) = a - payloadBase := by omega
    have hdata : (piece payload fam i).data[a - (payloadBase + i * blockSize)]? = payload[a - payloadBase]? := by
      rw [piece, Pack.getElem?_slice, hplace, if_pos (by omega)]
    rw [if_pos hin, Uf2Block.write, haddr, hlen, if_pos (by omega), hdata]
  · rw [if_neg hin, Uf2Block.write, haddr, hlen, if_neg (by omega)]

/-- The first pieces of the payload. -/
theorem layAll_pieces (payload : List UInt8) (fam : Nat) (m : Nat → Option UInt8) (a : Nat) : ∀ n : Nat,
    Overlay.layAll m (((List.range n).map (piece payload fam)).map Uf2Block.write) a =
      if payloadBase ≤ a ∧ a < payloadBase + min (n * blockSize) payload.length then payload[a - payloadBase]?
      else m a
  | 0 => (if_neg (by omega)).symm
  | n + 1 => by
    have hmul : (n + 1) * blockSize = n * blockSize + blockSize := Nat.succ_mul n blockSize
    rw [List.range_succ, List.map_append, List.map_append, Overlay.layAll_append]
    show Overlay.lay _ (piece payload fam n).write a = _
    by_cases hin : payloadBase + n * blockSize ≤ a ∧ a < payloadBase + min ((n + 1) * blockSize) payload.length
    · rw [Overlay.lay_of_some ((piece_write payload fam n a).trans (if_pos hin)), if_pos ⟨by omega, hin.2⟩]
    · rw [Overlay.lay_of_none ((piece_write payload fam n a).trans (if_neg hin)), layAll_pieces payload fam m a n]
      by_cases hold : payloadBase ≤ a ∧ a < payloadBase + min (n * blockSize) payload.length
      · rw [if_pos hold, if_pos (by omega)]
      · rw [if_neg hold, if_neg (by omega)]

theorem flash_payload (payload : List UInt8) (fam : Nat) (m : Nat → Option UInt8) (a : Nat) :
    Overlay.layAll m ((payloadBlocks payload fam).map Uf2Block.write) a =
      if payloadBase ≤ a ∧ a < payloadBase + payload.length then payload[a - payloadBase]? else m a := by
  have hall : min ((payload.length + blockSize - 1) / blockSize * blockSize) payload.length = payload.length := by
    rw [blockSize]
    omega
  rw [payloadBlocks, layAll_pieces, hall]

/-- A family has its own payload blocks, if it is one of the two. -/
theorem makePayloadBlocks_filter (payload : List UInt8) (fam : Nat) :
    (makePayloadBlocks payload).filter (fun b => b.fam = fam) =
      if fam ∈ families then payloadBlocks payload fam else [] := by
  have hfam : ∀ f, (payloadBlocks payload f).filter (fun b => b.fam = fam) =
      if f = fam then payloadBlocks payload f else [] := by
    intro f
    apply Lanes.filter_own
    intro b hb
    obtain ⟨i, -, rfl⟩ := List.mem_map.mp hb
    rfl
  rw [makePayloadBlocks, List.filter_flatMap, families, List.flatMap_cons, List.flatMap_cons, List.flatMap_nil, hfam,
    hfam, List.append_nil]
  by_cases h0 : 0xE48BFF56 = fam
  · rw [if_pos h0, if_neg (by omega), if_pos (by simp [h0]), h0, List.append_nil]
  · rw [if_neg h0, List.nil_append]
    by_cases h1 : 0xE48BFF59 = fam
    · rw [if_pos h1, if_pos (by simp [h1]), h1]
    · rw [if_neg h1, if_neg (by simp [Ne.symm h0, Ne.symm h1])]

/-! ## The merge -/

/-- Whole sectors, the magic words, and no more data than a sector has room for. -/
structure WellFormed (file : List UInt8) : Prop where
  whole : file.length % 512 = 0
  magic0 : ∀ blk ∈ Pack.chunks 512 file, (unpackWords blk).m0 = uf2Magic0
  magic1 : ∀ blk ∈ Pack.chunks 512 file, (unpackWords blk).m1 = uf2Magic1
  magicEnd : ∀ blk ∈ Pack.chunks 512 file, wordAt blk 127 = uf2MagicEnd
  size : ∀ blk ∈ Pack.chunks 512 file, (unpackWords blk).size ≤ 476

def Uf2Block.record (b : Uf2Block) : Nat × List UInt8 := (b.addr, b.data)

def ofFamily (fam : Nat) (blocks : List Uf2Block) : List Uf2Block := blocks.filter fun b => b.fam = fam

/-- The file that is written is read, and for each family it has the blocks of the input in
order, numbered from 0 and with their count, and leaves the firmware's flash under the
payload. -/
def Merged (firmware payload : List UInt8) : Prop :=
  ∃ fw out blocks, parseUf2 firmware = some fw ∧ emit (fw ++ makePayloadBlocks payload) = some out ∧
    parseUf2 out = some blocks ∧ ∀ fam,
      let given := ofFamily fam (fw ++ makePayloadBlocks payload)
      (ofFamily fam blocks).map Uf2Block.record = given.map Uf2Block.record ∧
      blockNumbers out fam = (List.range given.length).map (fun bno => (bno, given.length)) ∧
      ∀ a, flash (ofFamily fam blocks) a =
        if fam ∈ families ∧ payloadBase ≤ a ∧ a < payloadBase + payload.length then payload[a - payloadBase]?
        else flash (ofFamily fam fw) a

/-- No block has more data than is written, there is a block at all, the payload's last
address fits 32 bits, and so does every family's count. -/
structure Mergeable (firmware payload : List UInt8) : Prop where
  sizes : ∀ blk ∈ Pack.chunks 512 firmware, (unpackWords blk).size ≤ blockSize
  blocks : firmware ≠ [] ∨ payload ≠ []
  room : payload.length ≤ 2 ^ 32 - payloadBase
  counts : ∀ fam, ((Pack.chunks 512 firmware).filter fun blk => (unpackWords blk).fam = fam).length +
    (if fam ∈ families then (payload.length + blockSize - 1) / blockSize else 0) < 2 ^ 32

theorem wordAt_lt (blk : List UInt8) (i : Nat) : wordAt blk i < 2 ^ 32 := by
  have hlen : (Pack.slice blk (4 * i) (4 * i + 4)).length ≤ 4 := by
    rw [Pack.slice, List.length_drop, List.length_take]
    omega
  calc wordAt blk i < 256 ^ (Pack.slice blk (4 * i) (4 * i + 4)).length := Pack.fromLe_lt _
    _ ≤ 256 ^ 4 := Nat.pow_le_pow_right (by decide) hlen
    _ = 2 ^ 32 := by decide

theorem WellFormed.parse {file : List UInt8} (h : WellFormed file) :
    parseUf2 file = some ((Pack.chunks 512 file).map blockOf) := by
  rw [parseUf2_eq]
  apply mapM_eq_map
  intro blk hblk
  exact if_neg (not_or.mpr ⟨not_not.mpr (h.magic0 blk hblk), not_not.mpr (h.magic1 blk hblk)⟩)

theorem WellFormed.length_data {file : List UInt8} (h : WellFormed file) {blk : List UInt8}
    (hblk : blk ∈ Pack.chunks 512 file) : (blockOf blk).data.length = (unpackWords blk).size := by
  have hsize := h.size blk hblk
  have hlen := chunk_length hblk
  exact Pack.length_slice (by omega)

/-! ### The blocks that are dealt out -/

/-- Flags, addresses, families and counts fit their words. -/
def Packable (blocks : List Uf2Block) : Prop :=
  ∀ b ∈ blocks, b.flags ||| uf2FlagFamily < 2 ^ 32 ∧ b.addr < 2 ^ 32 ∧ b.fam < 2 ^ 32 ∧
    (ofFamily b.fam blocks).length < 2 ^ 32

section
variable {blocks dealt : List Uf2Block} (hdealt : interleaveFamilies blocks = some dealt)
include hdealt

theorem ofFamily_dealt (fam : Nat) : ofFamily fam dealt = ofFamily fam blocks :=
  Lanes.roundRobin_group_filter hdealt fam

theorem mem_dealt (b : Uf2Block) : b ∈ dealt ↔ b ∈ blocks := by
  have hfilter : ∀ bs : List Uf2Block, b ∈ ofFamily b.fam bs ↔ b ∈ bs := by
    intro bs
    simp [ofFamily]
  rw [← hfilter dealt, ofFamily_dealt hdealt, hfilter]

theorem tally_dealt (fam : Nat) : Lanes.tally Uf2Block.fam dealt fam = (ofFamily fam blocks).length := by
  rw [Lanes.tally_eq]
  exact congrArg List.length (ofFamily_dealt hdealt fam)

/-- A number is below its count, so it need not be looked at. -/
theorem allFit_dealt : AllFit (Lanes.tally Uf2Block.fam dealt) (numbered dealt) ↔ Packable blocks := by
  constructor
  · intro h b hb
    have hb : b ∈ (numbered dealt).map Prod.snd := by
      rwa [numbered, Lanes.number_snd, mem_dealt hdealt]
    obtain ⟨⟨bno, _⟩, he, rfl⟩ := List.mem_map.mp hb
    have hfit := h _ he
    rw [tally_dealt hdealt] at hfit
    simp only [Uf2Block.WordsFit, Uf2Block.words, List.forall_mem_cons] at hfit
    exact ⟨hfit.2.2.1, hfit.2.2.2.1, hfit.2.2.2.2.2.2.2.1, hfit.2.2.2.2.2.2.1⟩
  · rintro h ⟨bno, b⟩ he
    have hb : b ∈ blocks := by
      have hsnd : (numbered dealt).map Prod.snd = dealt := Lanes.number_snd dealt _
      rw [← mem_dealt hdealt, ← hsnd]
      exact List.mem_map_of_mem he
    obtain ⟨hflags, haddr, hfam, hcount⟩ := h b hb
    have hbno : bno < (ofFamily b.fam blocks).length := by
      have hmem : bno ∈ ((numbered dealt).filter fun e => e.2.fam = b.fam).map Prod.fst :=
        List.mem_map.mpr ⟨(bno, b), List.mem_filter.mpr ⟨he, decide_eq_true rfl⟩, rfl⟩
      rw [numbered, Lanes.number_filter] at hmem
      have := (List.mem_range'_1.mp hmem).2
      rwa [Nat.zero_add, show (dealt.filter fun x => x.fam = b.fam) = _ from ofFamily_dealt hdealt b.fam] at this
    have hdata := length_take_blockSize b
    rw [tally_dealt hdealt]
    simp only [Uf2Block.WordsFit, Uf2Block.words, List.forall_mem_cons]
    exact ⟨by decide, by decide, hflags, haddr, by omega, by omega, hcount, hfam, List.forall_mem_nil _⟩

end

/-- A family's blocks in the file that is written. -/
theorem emit_written {blocks : List Uf2Block} {out : List UInt8} (h : emit blocks = some out) :
    ∃ written, parseUf2 out = some written ∧ ∀ fam,
      ofFamily fam written = (ofFamily fam blocks).map Uf2Block.emitted ∧
      blockNumbers out fam =
        (List.range (ofFamily fam blocks).length).map fun bno => (bno, (ofFamily fam blocks).length) := by
  obtain ⟨dealt, hdealt, hfit, rfl⟩ := emit_eq_some.mp h
  refine ⟨dealt.map Uf2Block.emitted, ?_, fun fam => ⟨?_, ?_⟩⟩
  · rw [parseUf2_sectors hfit, numbered]
    congr 1
    calc (Lanes.number Uf2Block.fam (fun _ => 0) dealt).map (fun e => e.2.emitted)
        = ((Lanes.number Uf2Block.fam (fun _ => 0) dealt).map Prod.snd).map Uf2Block.emitted := by
          rw [List.map_map]
          rfl
      _ = dealt.map Uf2Block.emitted := by rw [Lanes.number_snd]
  · calc ofFamily fam (dealt.map Uf2Block.emitted) = (ofFamily fam dealt).map Uf2Block.emitted := List.filter_map
      _ = (ofFamily fam blocks).map Uf2Block.emitted := by rw [ofFamily_dealt hdealt]
  · rw [blockNumbers_sectors hfit, tally_dealt hdealt, numbered, Lanes.number_filter, List.range_eq_range']
    exact congrArg (fun bs : List Uf2Block => (List.range' 0 bs.length).map _) (ofFamily_dealt hdealt fam)

theorem emit_isSome {blocks : List Uf2Block} : (∃ out, emit blocks = some out) ↔ blocks ≠ [] ∧ Packable blocks := by
  constructor
  · rintro ⟨out, h⟩
    obtain ⟨dealt, hdealt, hfit, -⟩ := emit_eq_some.mp h
    refine ⟨?_, (allFit_dealt hdealt).mp hfit⟩
    rintro rfl
    cases hdealt
  · rintro ⟨hne, hfit⟩
    obtain ⟨dealt, hdealt⟩ : ∃ dealt, interleaveFamilies blocks = some dealt :=
      Option.ne_none_iff_exists'.mp fun h => hne (Lanes.roundRobin_group_none.mp h)
    exact ⟨_, emit_eq_some.mpr ⟨dealt, hdealt, (allFit_dealt hdealt).mpr hfit, rfl⟩⟩

/-- Blocks of at most 256 bytes are read again as they were. -/
theorem map_record_emitted (blocks : List Uf2Block) :
    (blocks.map Uf2Block.emitted).map Uf2Block.record = blocks.map Uf2Block.record ↔
      ∀ b ∈ blocks, b.data.length ≤ blockSize := by
  rw [List.map_map, List.map_inj_left]
  refine forall₂_congr fun b _ => ?_
  calc b.emitted.record = b.record ↔ b.data.take blockSize = b.data := by
        simp [Uf2Block.record, Uf2Block.emitted]
    _ ↔ b.data.length ≤ blockSize :=
        ⟨fun h => h ▸ length_take_blockSize b, List.take_of_length_le⟩

theorem flash_emitted {blocks : List Uf2Block} (h : ∀ b ∈ blocks, b.data.length ≤ blockSize) :
    flash (blocks.map Uf2Block.emitted) = flash blocks := by
  rw [flash, flash, List.map_map]
  congr 1
  apply List.map_congr_left
  intro b hb
  have hdata : b.emitted.data = b.data := List.take_of_length_le (h b hb)
  funext a
  rw [Function.comp_apply, Uf2Block.write, hdata]
  rfl

theorem piece_mem {payload : List UInt8} {b : Uf2Block} (h : b ∈ makePayloadBlocks payload) :
    b.fam ∈ families ∧ ∃ i, i < (payload.length + blockSize - 1) / blockSize ∧ b = piece payload b.fam i := by
  obtain ⟨fam, hfam, h⟩ := List.mem_flatMap.mp h
  obtain ⟨i, hi, rfl⟩ := List.mem_map.mp h
  exact ⟨hfam, i, List.mem_range.mp hi, rfl⟩

/-- What is merged, once the firmware has been read. -/
def given (firmware payload : List UInt8) : List Uf2Block :=
  (Pack.chunks 512 firmware).map blockOf ++ makePayloadBlocks payload

section
variable {firmware payload : List UInt8}

/-- A payload block fits at its place if the payload's last byte has an address. -/
theorem room_iff : payload.length ≤ 2 ^ 32 - payloadBase ↔
    ∀ i < (payload.length + blockSize - 1) / blockSize, payloadBase + i * blockSize < 2 ^ 32 := by
  rw [payloadBase, blockSize]
  constructor
  · intro h i hi
    omega
  · intro h
    by_contra hlong
    have := h 0xEFFCF0 (by omega)
    omega

theorem count_given (firmware payload : List UInt8) (fam : Nat) :
    (ofFamily fam (given firmware payload)).length =
      ((Pack.chunks 512 firmware).filter fun blk => (unpackWords blk).fam = fam).length +
        (if fam ∈ families then (payload.length + blockSize - 1) / blockSize else 0) := by
  have hfirmware : ofFamily fam ((Pack.chunks 512 firmware).map blockOf) =
      ((Pack.chunks 512 firmware).filter fun blk => (unpackWords blk).fam = fam).map blockOf := List.filter_map
  have hpayload : (ofFamily fam (makePayloadBlocks payload)).length =
      if fam ∈ families then (payload.length + blockSize - 1) / blockSize else 0 := by
    rw [ofFamily, makePayloadBlocks_filter]
    split
    · rw [payloadBlocks, List.length_map, List.length_range]
    · rfl
  rw [ofFamily, given, List.filter_append, List.length_append]
  exact congrArg₂ (· + ·) ((congrArg List.length hfirmware).trans (List.length_map _)) hpayload

theorem given_ne_nil (hw : WellFormed firmware) : given firmware payload ≠ [] ↔ firmware ≠ [] ∨ payload ≠ [] := by
  have hfirmware : (Pack.chunks 512 firmware).map blockOf = [] ↔ firmware = [] := by
    rw [List.map_eq_nil_iff, Pack.chunks, List.map_eq_nil_iff, List.range_eq_nil, ← List.length_eq_zero_iff]
    have := hw.whole
    omega
  have hpayload : makePayloadBlocks payload = [] ↔ payload = [] := by
    have hpieces : ∀ fam, payloadBlocks payload fam = [] ↔ payload = [] := by
      intro fam
      rw [payloadBlocks, List.map_eq_nil_iff, List.range_eq_nil, ← List.length_eq_zero_iff, blockSize]
      omega
    simp [makePayloadBlocks, families, hpieces]
  rw [given, Ne, List.append_eq_nil_iff, hfirmware, hpayload, not_and_or]

/-- The words of all blocks fit when the payload has room and the counts fit. -/
theorem given_packable : Packable (given firmware payload) ↔
    payload.length ≤ 2 ^ 32 - payloadBase ∧
      ∀ fam, ((Pack.chunks 512 firmware).filter fun blk => (unpackWords blk).fam = fam).length +
        (if fam ∈ families then (payload.length + blockSize - 1) / blockSize else 0) < 2 ^ 32 := by
  constructor
  · intro h
    refine ⟨room_iff.mpr fun i hi => ?_, fun fam => ?_⟩
    · have hmem : piece payload 0xE48BFF56 i ∈ makePayloadBlocks payload :=
        List.mem_flatMap.mpr ⟨_, List.mem_cons_self, List.mem_map_of_mem (List.mem_range.mpr hi)⟩
      exact (h _ (List.mem_append_right _ hmem)).2.1
    · rw [← count_given firmware payload]
      rcases hgiven : ofFamily fam (given firmware payload) with _ | ⟨b, bs⟩
      · decide
      · have hb : b ∈ ofFamily fam (given firmware payload) := hgiven ▸ List.mem_cons_self
        obtain ⟨hb, hfam⟩ := List.mem_filter.mp hb
        have := (h b hb).2.2.2
        rwa [of_decide_eq_true hfam, hgiven] at this
  · rintro ⟨hroom, hcounts⟩ b hb
    have hcount := count_given firmware payload b.fam ▸ hcounts b.fam
    rcases List.mem_append.mp hb with hfw | hpl
    · obtain ⟨blk, -, rfl⟩ := List.mem_map.mp hfw
      exact ⟨Nat.or_lt_two_pow (wordAt_lt blk 2) (by decide), wordAt_lt blk 3, wordAt_lt blk 7, hcount⟩
    · obtain ⟨hfam, i, hi, hpiece⟩ := piece_mem hpl
      refine ⟨?_, ?_, ?_, hcount⟩
      · rw [hpiece]
        exact (by decide : uf2FlagFamily ||| uf2FlagFamily < 2 ^ 32)
      · rw [hpiece]
        exact room_iff.mp hroom i hi
      · have hlt : ∀ fam ∈ families, fam < 2 ^ 32 := by decide
        exact hlt b.fam hfam

theorem given_sizes (hw : WellFormed firmware) (payload : List UInt8) :
    (∀ b ∈ given firmware payload, b.data.length ≤ blockSize) ↔
      ∀ blk ∈ Pack.chunks 512 firmware, (unpackWords blk).size ≤ blockSize := by
  constructor
  · intro h blk hblk
    rw [← hw.length_data hblk]
    exact h _ (List.mem_append_left _ (List.mem_map_of_mem hblk))
  · intro h b hb
    rcases List.mem_append.mp hb with hfw | hpl
    · obtain ⟨blk, hblk, rfl⟩ := List.mem_map.mp hfw
      rw [hw.length_data hblk]
      exact h blk hblk
    · obtain ⟨-, i, -, hpiece⟩ := piece_mem hpl
      have hmul : (i + 1) * blockSize = i * blockSize + blockSize := Nat.succ_mul i blockSize
      rw [hpiece, length_piece]
      omega

/-- The flash of a family that has been given blocks no larger than is written. -/
theorem flash_given (fw : List Uf2Block) (fam a : Nat) : flash (ofFamily fam (fw ++ makePayloadBlocks payload)) a =
    if fam ∈ families ∧ payloadBase ≤ a ∧ a < payloadBase + payload.length then payload[a - payloadBase]?
    else flash (ofFamily fam fw) a := by
  rw [ofFamily, List.filter_append, makePayloadBlocks_filter, flash, List.map_append, Overlay.layAll_append]
  by_cases hfam : fam ∈ families
  · rw [if_pos hfam, flash_payload]
    simp only [hfam, true_and]
    rfl
  · rw [if_neg hfam, if_neg fun h => hfam h.1]
    rfl

/-- A merge that keeps every block has written no block short. -/
theorem Merged.sizes (hw : WellFormed firmware) (h : Merged firmware payload) :
    ∀ blk ∈ Pack.chunks 512 firmware, (unpackWords blk).size ≤ blockSize := by
  obtain ⟨fw, out, blocks, hfw, hout, hblocks, h⟩ := h
  obtain rfl := Option.some.inj (hw.parse.symm.trans hfw)
  obtain ⟨written, hwritten, hfam⟩ := emit_written hout
  obtain rfl := Option.some.inj (hwritten.symm.trans hblocks)
  refine (given_sizes hw payload).mp fun b hb => ?_
  have hrecord := (h b.fam).1
  rw [(hfam b.fam).1, map_record_emitted] at hrecord
  exact hrecord b (List.mem_filter.mpr ⟨hb, decide_eq_true rfl⟩)

/-- Every block comes through exactly when none is too long and everything fits its word. -/
theorem merged_iff (hw : WellFormed firmware) : Merged firmware payload ↔ Mergeable firmware payload := by
  constructor
  · intro h
    have hsizes := h.sizes hw
    obtain ⟨fw, out, blocks, hfw, hout, -, -⟩ := h
    obtain rfl := Option.some.inj (hw.parse.symm.trans hfw)
    obtain ⟨hne, hfit⟩ := emit_isSome.mp ⟨out, hout⟩
    obtain ⟨hroom, hcounts⟩ := given_packable.mp hfit
    exact ⟨hsizes, (given_ne_nil hw).mp hne, hroom, hcounts⟩
  · intro h
    have hsizes := (given_sizes hw payload).mpr h.sizes
    obtain ⟨out, hout⟩ := emit_isSome.mpr ⟨(given_ne_nil hw).mpr h.blocks, given_packable.mpr ⟨h.room, h.counts⟩⟩
    obtain ⟨written, hwritten, hfam⟩ := emit_written hout
    refine ⟨_, out, written, hw.parse, hout, hwritten, fun fam => ?_⟩
    have hown : ∀ b ∈ ofFamily fam (given firmware payload), b.data.length ≤ blockSize :=
      fun b hb => hsizes b (List.mem_of_mem_filter hb)
    obtain ⟨hblocks, hnumbers⟩ := hfam fam
    refine ⟨?_, hnumbers, fun a => ?_⟩
    · rw [hblocks]
      exact (map_record_emitted _).mpr hown
    · calc flash (ofFamily fam written) a = flash (ofFamily fam (given firmware payload)) a := by
            rw [hblocks, flash_emitted hown]
        _ = _ := flash_given _ fam a

/-- One sector of firmware, with `size` bytes of data. -/
def firmwareSector (addr size bno nblk fam : Nat) : List UInt8 :=
  [uf2Magic0, uf2Magic1, uf2FlagFamily, addr, size, bno, nblk, fam].flatMap (Pack.le 4) ++
    List.replicate size 0xAA ++ List.replicate (476 - size) 0 ++ Pack.le 4 uf2MagicEnd

/-- Two blocks for the first family, the last of them short, and one for the second between. -/
def twoFamilies : List UInt8 :=
  firmwareSector 0x10000000 256 0 2 0xE48BFF56 ++ firmwareSector 0x10000000 256 0 1 0xE48BFF59 ++
    firmwareSector 0x10000100 200 1 2 0xE48BFF56

/-- With a payload of 300 bytes, the last 44 of them a block of their own. -/
theorem merged_twoFamilies : Merged twoFamilies (List.replicate 300 0x55) := by
  have hw : WellFormed twoFamilies := by
    constructor <;> decide +kernel
  apply (merged_iff hw).mpr
  have hlength : (List.replicate 300 (0x55 : UInt8)).length = 300 := List.length_replicate
  refine ⟨by decide +kernel, .inr (List.cons_ne_nil _ _), by rw [hlength]; decide, fun fam => ?_⟩
  have hblocks : (Pack.chunks 512 twoFamilies).length = 3 := by decide +kernel
  have hle := List.length_filter_le (fun blk => decide ((unpackWords blk).fam = fam)) (Pack.chunks 512 twoFamilies)
  have hpieces : (List.replicate 300 (0x55 : UInt8)).length + blockSize - 1 = 555 := by
    rw [hlength]
    rfl
  rw [hpieces]
  split
  · rw [blockSize]
    omega
  · omega

/-- Firmware of one block with so many bytes of data. -/
def oneBlock (size : Nat) : List UInt8 :=
  [uf2Magic0, uf2Magic1, uf2FlagFamily, 0x10000000, size, 0, 1, 0xE48BFF56].flatMap (Pack.le 4) ++
    List.replicate size 0xAA ++ List.replicate (476 - size) 0 ++ Pack.le 4 uf2MagicEnd

/-- A block of 257 bytes, which the format allows, loses the last one. -/
theorem merge_shortens : WellFormed (oneBlock 257) ∧ ¬ Merged (oneBlock 257) [] := by
  have hw : WellFormed (oneBlock 257) := by
    constructor <;> decide +kernel
  refine ⟨hw, fun h => ?_⟩
  exact absurd (h.sizes hw) (by decide +kernel)

end

end Picoloader

end Cubiboot
