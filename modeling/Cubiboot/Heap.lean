import Cubiboot.Lib.Run
import Cubiboot.PmallocSpec
import Cubiboot.Worker

/-
  The entry heap over a whole session (`gm_init_heap`, `gm_malloc` and `gm_free` in
  `games.c`): a cube logo buffer or none before the first scan, then for every
  folder up to 1920 entries, and all of them freed in list order. What is
  allocated may be overwritten at any time.

  While a folder fills, the heap is the live blocks one after the other and one
  free block after them. While it empties, there is one more free block, before
  the blocks still live; each block freed is merged into it, and the last one with
  the free block at the end as well. `HeapAt` says this, with `lo` where the live
  blocks begin and `top` where they end.

  What is proved:
    1. `gmMalloc_at`, `gmFree_at`, `write_at` — each call keeps `HeapAt`.
    2. `HeapAt.sound` — what it means for the blocks handed out.
    3. `heap_survives` — hence in every state of every session.

  Correspondence (C ↔ Lean):
    `gm_heap_buffer`, `gm_init_heap`  ↔ `HeapBuffer`, `gmInitHeap`
    `gm_malloc(x)`, `gm_free(x)`      ↔ `gmMalloc`, `gmFree`
-/

set_option autoImplicit false

namespace Cubiboot

@[irreducible] def gmHeapSize : Nat := 2 * 1024 * 1024

theorem gmHeapSize_eq : gmHeapSize = 2097152 := by
  unfold gmHeapSize
  rfl

/-- `sizeof(gm_file_entry_t)`: path, description, extra, asset, type and second. -/
def gmFileEntrySize : Nat := 128 + 320 + 32 + 100 + 4 + 4

/-- `CUBE_LOGO_SIZE`. -/
def cubeLogoSize : Nat := 352 * 40 * 4

/-- Where the linker puts the buffer: aligned, in the 4 MiB from 0x80100000. -/
structure HeapBuffer where
  base : Nat
  aligned : base % 32 = 0
  low : 0x80100000 ≤ base
  high : base + gmHeapSize ≤ 0x80500000

/-- A block handed out: `mem` is what `pmalloc_malloc` returned for it, `ptr` what
`gm_malloc` made of that. -/
structure HeapBlock where
  mem : Nat
  ptr : Nat
  size : Nat

/-- The heap and the blocks in use, in list order. `stuck`: a loop did not end. -/
structure HeapSys where
  pm : Pmalloc
  live : List HeapBlock
  stuck : Bool

/-- The buffer is not cleared at power-on. -/
def gmInitHeap (b : HeapBuffer) (garbage : Nat → UInt32) : HeapSys :=
  let pm := pmallocInit fun a => (garbage a).toNat
  match pmallocAddblock pm b.base gmHeapSize with
  | some pm => ⟨pm, [], false⟩
  | none => ⟨pm, [], true⟩

def gmMalloc (s : HeapSys) (size : Nat) : HeapSys :=
  match pmallocMalloc s.pm ((size + 32) % wordMod), pmallocMemalign s.pm size 32 with
  | some (_, mem), some (pm, ptr) => { s with pm := pm, live := s.live ++ [⟨mem, ptr, size⟩] }
  | _, _ => { s with stuck := true }

/-- The first block of the list is freed. -/
def gmFree (s : HeapSys) : HeapSys :=
  match s.live with
  | [] => s
  | l :: live =>
    match pmallocFreealign s.pm l.ptr with
    | some pm => { s with pm := pm, live := live }
    | none => { s with stuck := true }

/-- All of a block is written over. -/
def HeapBlock.overwrite (l : HeapBlock) (data : Nat → UInt32) (m : HeapMem) : HeapMem := fun a =>
  if l.ptr ≤ a ∧ a < l.ptr + l.size then (data (a - l.ptr)).toNat else m a

/-- The calls, and writes to the `i`th block in use. -/
inductive HeapOp where
  | mallocLogo
  | mallocEntry
  | write (i : Nat) (data : Nat → UInt32)
  | free

def heapStep (s : HeapSys) : HeapOp → HeapSys
  | .mallocLogo => gmMalloc s cubeLogoSize
  | .mallocEntry => gmMalloc s gmFileEntrySize
  | .write i data =>
    match s.live[i]? with
    | some l => { s with pm := { s.pm with mem := l.overwrite data s.pm.mem } }
    | none => s
  | .free => gmFree s

/-! ## The call pattern -/

/-- Before the first entry; with the logo's buffer; a folder filling, or emptying,
with so many entries. -/
inductive HeapPhase where
  | boot
  | logo
  | filling (entries : Nat)
  | draining (entries : Nat)
  deriving DecidableEq

def HeapPhase.live : HeapPhase → Nat
  | .boot => 0
  | .logo => 1
  | .filling n | .draining n => n

def phaseStep : HeapPhase → HeapOp → HeapPhase
  | p, .write _ _ => p
  | _, .mallocLogo => .logo
  | p, .mallocEntry => .filling (p.live + 1)
  | p, .free => if p.live ≤ 1 then .filling 0 else .draining (p.live - 1)

/-- The calls `games.c` makes. -/
def Called : HeapPhase → HeapOp → Prop
  | _, .write _ _ => True
  | .boot, .mallocLogo => True
  | .boot, .mallocEntry => True
  | .filling n, .mallocEntry => n < maxPaths
  | .logo, .free => True
  | .filling n, .free | .draining n, .free => 0 < n
  | _, _ => False

instance (p : HeapPhase) (op : HeapOp) : Decidable (Called p op) := by
  unfold Called
  split <;> infer_instance

/-! ## What a session must find -/

/-- The headers of both lists, the free blocks' first. -/
def Pmalloc.headers (pm : Pmalloc) : Option (List Nat) := do
  let available ← DList.walk pm.mem.links 0 searchBound pm.available
  let assigned ← DList.walk pm.mem.links 0 searchBound pm.assigned
  return available ++ assigned

structure HeapSound (b : HeapBuffer) (s : HeapSys) : Prop where
  running : s.stuck = false
  inside : ∀ l ∈ s.live,
    l.ptr ≠ 0 ∧ l.ptr % 32 = 0 ∧ b.base ≤ l.ptr ∧ l.ptr + l.size ≤ b.base + gmHeapSize
  disjoint : s.live.Pairwise fun k l => k.ptr + k.size ≤ l.ptr ∨ l.ptr + l.size ≤ k.ptr
  headers : ∃ hs, s.pm.headers = some hs ∧
    ∀ h ∈ hs, ∀ l ∈ s.live, h + itemSize ≤ l.ptr ∨ l.ptr + l.size ≤ h
  found : ∀ l ∈ s.live, findHeader s.pm.mem searchBound l.ptr = some l.mem
  whole : s.live = [] →
    s.pm.headers = some [b.base] ∧ s.pm.assigned = 0 ∧ s.pm.mem.size b.base = gmHeapSize - itemSize

/-! ## Blocks one after the other -/

/-- The block whose header is at `a`: its header, and the padding before `ptr`. -/
structure HeapBlock.Ok (l : HeapBlock) (m : HeapMem) (a : Nat) : Prop where
  mem_eq : l.mem = a + itemSize
  ptr_eq : l.ptr = alignUp 32 l.mem
  size_mod : l.size % 4 = 0
  size_eq : m.size a = l.size + 32
  magic : m.magic a = feedFace
  padding : ∀ i, l.mem + 4 * i < l.ptr → m (l.mem + 4 * i) = deadBeef

/-- The blocks fill memory from `a` to `t`. -/
def Laid (m : HeapMem) : Nat → List HeapBlock → Nat → Prop
  | a, [], t => a = t
  | a, l :: ls, t => l.Ok m a ∧ Laid m (a + itemSize + (l.size + 32)) ls t

def HeapBlock.header (l : HeapBlock) : Nat := l.mem - itemSize

section
variable {m m' : HeapMem} {a t : Nat} {l : HeapBlock} {ls : List HeapBlock}

theorem HeapBlock.Ok.bounds (h : l.Ok m a) (h4 : a % 4 = 0) :
    l.ptr % 32 = 0 ∧ a + itemSize ≤ l.ptr ∧ l.ptr + l.size ≤ a + itemSize + (l.size + 32) ∧
      l.ptr < l.mem + 32 ∧ (l.ptr - l.mem) % 4 = 0 := by
  have hmem := h.mem_eq
  simp only [itemSize] at hmem ⊢
  have := alignUp_spec l.mem (by omega)
  rw [← h.ptr_eq] at this
  omega

/-- The walk back from a block ends at its own header. -/
theorem HeapBlock.Ok.found (h : l.Ok m a) (h4 : a % 4 = 0) : findHeader m searchBound l.ptr = some l.mem := by
  have hmem := h.mem_eq
  simp only [itemSize] at hmem
  obtain ⟨-, hle, -, hlt, hmod⟩ := h.bounds h4
  simp only [itemSize] at hle
  have hptr : l.ptr = l.mem + 4 * ((l.ptr - l.mem) / 4) := by omega
  have hmagic : m (l.mem - 4) = feedFace := by
    rw [show l.mem - 4 = a + 12 by omega]
    exact h.magic
  rw [hptr]
  apply findHeader_spec (by omega) hmagic
  · intro i hi
    exact h.padding i (by omega)
  · rw [searchBound_eq]
    omega

/-- It is the header's last two words and the padding that make a block. -/
theorem HeapBlock.Ok.congr (h : l.Ok m a) (h4 : a % 4 = 0)
    (heq : ∀ w, a + 8 ≤ w → w < l.ptr → m' w = m w) : l.Ok m' a := by
  have hmem := h.mem_eq
  simp only [itemSize] at hmem
  obtain ⟨-, hle, -⟩ := h.bounds h4
  simp only [itemSize] at hle
  refine ⟨h.mem_eq, h.ptr_eq, h.size_mod, ?_, ?_, fun i hi => ?_⟩
  · exact (heq (a + 8) (by omega) (by omega)).trans h.size_eq
  · exact (heq (a + 12) (by omega) (by omega)).trans h.magic
  · exact (heq _ (by omega) hi).trans (h.padding i hi)

theorem HeapBlock.Ok.header_eq (h : l.Ok m a) : l.header = a := by
  rw [HeapBlock.header, h.mem_eq, Nat.add_sub_cancel]

/-- Where the next block begins. -/
theorem HeapBlock.Ok.next_mod (h : l.Ok m a) (h4 : a % 4 = 0) : (a + itemSize + (l.size + 32)) % 4 = 0 := by
  have hsize := h.size_mod
  simp only [itemSize]
  omega

theorem Laid.le (h : Laid m a ls t) : a ≤ t := by
  induction ls generalizing a with
  | nil => exact Nat.le_of_eq h
  | cons l ls ih =>
    have := ih h.2
    omega

theorem Laid.mod (h : Laid m a ls t) (h4 : a % 4 = 0) : t % 4 = 0 := by
  induction ls generalizing a with
  | nil => exact h ▸ h4
  | cons l ls ih => exact ih h.2 (h.1.next_mod h4)

/-- Each block is where its header says, between `a` and `t`. -/
theorem Laid.mem (h : Laid m a ls t) (h4 : a % 4 = 0) :
    ∀ l ∈ ls, l.Ok m l.header ∧ l.header % 4 = 0 ∧ a ≤ l.header ∧ l.header + itemSize + (l.size + 32) ≤ t := by
  induction ls generalizing a with
  | nil => intro l hl; cases hl
  | cons k ls ih =>
    obtain ⟨hok, hrest⟩ := h
    intro l hl
    rcases List.mem_cons.mp hl with rfl | hl
    · rw [hok.header_eq]
      exact ⟨hok, h4, Nat.le_refl _, hrest.le⟩
    · obtain ⟨h1, h2, h3, h5⟩ := ih hrest (hok.next_mod h4) l hl
      exact ⟨h1, h2, by omega, h5⟩

theorem Laid.apart (h : Laid m a ls t) (h4 : a % 4 = 0) :
    ls.Pairwise fun k l => k.header + itemSize + (k.size + 32) ≤ l.header := by
  induction ls generalizing a with
  | nil => exact .nil
  | cons k ls ih =>
    obtain ⟨hok, hrest⟩ := h
    have h4' := hok.next_mod h4
    refine List.pairwise_cons.mpr ⟨fun l hl => ?_, ih hrest h4'⟩
    rw [hok.header_eq]
    exact (hrest.mem h4' l hl).2.2.1

theorem Laid.congr (h : Laid m a ls t) (h4 : a % 4 = 0)
    (heq : ∀ l ∈ ls, ∀ w, l.header + 8 ≤ w → w < l.ptr → m' w = m w) : Laid m' a ls t := by
  induction ls generalizing a with
  | nil => exact h
  | cons k ls ih =>
    obtain ⟨hok, hrest⟩ := h
    have hk := heq k List.mem_cons_self
    rw [hok.header_eq] at hk
    exact ⟨hok.congr h4 hk, ih hrest (hok.next_mod h4) fun l hl => heq l (List.mem_cons_of_mem k hl)⟩

theorem Laid.snoc (h : Laid m a ls t) (hl : l.Ok m t) :
    Laid m a (ls ++ [l]) (t + itemSize + (l.size + 32)) := by
  induction ls generalizing a with
  | nil =>
    obtain rfl : a = t := h
    exact ⟨hl, rfl⟩
  | cons k ls ih => exact ⟨h.1, ih h.2⟩

/-- Blocks of one size take their number times it. -/
theorem Laid.length {size : Nat} (h : Laid m a ls t) (hsize : ∀ l ∈ ls, l.size = size) :
    t = a + ls.length * (itemSize + (size + 32)) := by
  induction ls generalizing a with
  | nil =>
    rw [List.length_nil, Nat.zero_mul]
    exact Eq.symm h
  | cons k ls ih =>
    have hrest := ih h.2 fun l hl => hsize l (List.mem_cons_of_mem k hl)
    rw [hsize k List.mem_cons_self] at hrest
    rw [hrest, List.length_cons, Nat.succ_mul]
    omega

theorem Laid.length_le (h : Laid m a ls t) : a + ls.length ≤ t := by
  induction ls generalizing a with
  | nil => exact Nat.le_of_eq h
  | cons k ls ih =>
    have hrest := ih h.2
    simp only [List.length_cons, itemSize] at hrest ⊢
    omega

theorem Laid.far (h : Laid m a ls t) (h4 : a % 4 = 0) : ∀ k ∈ ls, ∀ l ∈ ls, k = l ∨
    k.header + itemSize + (k.size + 32) ≤ l.header ∨ l.header + itemSize + (l.size + 32) ≤ k.header := by
  intro k hk l hl
  apply List.Pairwise.forall_of_forall_of_flip (l := ls)
    (R := fun k l => k = l ∨ k.header + itemSize + (k.size + 32) ≤ l.header ∨
      l.header + itemSize + (l.size + 32) ≤ k.header)
  · exact fun c _ => .inl rfl
  · exact (h.apart h4).imp fun hab => .inr (.inl hab)
  · exact (h.apart h4).imp fun hab => .inr (.inr hab)
  · exact hk
  · exact hl

/-- No header's links are in the words that make a block. -/
theorem Laid.offLinks (h : Laid m a ls t) (h4 : a % 4 = 0) (hl : l ∈ ls) {w : Nat} (hlow : l.header + 8 ≤ w)
    (hhigh : w < l.ptr) : OffLinks (ls.map HeapBlock.header) w := by
  obtain ⟨hok, hmod, -, -⟩ := h.mem h4 l hl
  have hmem := hok.mem_eq
  obtain ⟨-, -, hend, -⟩ := hok.bounds hmod
  intro x hx
  obtain ⟨k, hk, rfl⟩ := List.mem_map.mp hx
  rcases h.far h4 k hk l hl with rfl | hkl | hlk
  · omega
  · simp only [itemSize] at hkl
    omega
  · simp only [itemSize] at hlk hend
    omega

end

/-! ## The heap at a point of a session -/

/-- The free block before the live ones, once blocks have been freed. -/
def HeapBuffer.front (b : HeapBuffer) (lo : Nat) : List Nat := if lo = b.base then [] else [b.base]

structure HeapAt (b : HeapBuffer) (s : HeapSys) (lo top : Nat) : Prop where
  running : s.stuck = false
  mod : lo % 4 = 0
  low : b.base ≤ lo
  laid : Laid s.pm.mem lo s.live top
  fits : top + itemSize ≤ b.base + gmHeapSize
  assigned : ItemList s.pm.mem s.pm.assigned (s.live.map HeapBlock.header)
  available : ItemList s.pm.mem s.pm.available (b.front lo ++ [top])
  front : lo ≠ b.base → lo = b.base + itemSize + s.pm.mem.size b.base
  rest : top + itemSize + s.pm.mem.size top = b.base + gmHeapSize

theorem HeapBuffer.bounds (b : HeapBuffer) :
    0 < b.base ∧ b.base % 4 = 0 ∧ b.base + 2097152 + 16 < 4294967296 := by
  obtain ⟨base, ha, hl, hh⟩ := b
  rw [gmHeapSize_eq] at hh
  dsimp only
  omega

theorem HeapBuffer.front_base (b : HeapBuffer) : b.front b.base = [] := if_pos rfl

theorem gmInitHeap_at (b : HeapBuffer) (garbage : Nat → UInt32) :
    HeapAt b (gmInitHeap b garbage) b.base b.base ∧ (gmInitHeap b garbage).live = [] := by
  obtain ⟨hpos, h4, hend⟩ := b.bounds
  have halign : (b.base + 3) / 4 * 4 = b.base := by omega
  generalize hm : HeapMem.setSize (fun a => (garbage a).toNat) b.base (gmHeapSize - itemSize) = m
  have hempty : ItemList m 0 ([] ++ []) := ⟨⟨List.Pairwise.nil, fun h hh => by cases hh⟩, rfl, trivial⟩
  have hspread : Spread [b.base] := ⟨List.pairwise_singleton .., fun h hh => by
    obtain rfl := List.mem_singleton.mp hh
    exact hpos⟩
  obtain ⟨m', available, hins, hlist, hrew⟩ := itemInsert_listed (x := b.base) hempty hspread
    (fun h => absurd rfl h) (by rw [searchBound_eq]; decide)
  have hsize : m'.size b.base = gmHeapSize - itemSize := by
    refine (hrew.frame (b.base + 8) fun h hh => ?_).trans ?_
    · obtain rfl := List.mem_singleton.mp hh
      omega
    · rw [← hm]
      exact Function.update_self ..
  have hinit : ∃ f t n, gmInitHeap b garbage = ⟨⟨m', available, 0, f, t, n⟩, [], false⟩ := by
    simp only [gmInitHeap, pmallocAddblock, pmallocInit, halign, Nat.sub_self, Nat.sub_zero, hm, hins,
      Option.map_some]
    exact ⟨_, _, _, rfl⟩
  obtain ⟨f, t, n, heq⟩ := hinit
  rw [heq]
  refine ⟨⟨rfl, h4, Nat.le_refl _, rfl, ?_, ?_, ?_, fun h => absurd rfl h, ?_⟩, rfl⟩
  · rw [gmHeapSize_eq]
    simp only [itemSize]
    omega
  · exact ⟨⟨List.Pairwise.nil, fun h hh => by cases hh⟩, rfl, trivial⟩
  · rw [b.front_base]
    exact hlist
  · show b.base + itemSize + m'.size b.base = b.base + gmHeapSize
    have h16 : itemSize = 16 := rfl
    rw [hsize, gmHeapSize_eq]
    omega

/-! ### Allocating -/

theorem HeapAt.header_le {b : HeapBuffer} {s : HeapSys} {lo top : Nat} (h : HeapAt b s lo top) :
    ∀ x ∈ s.live.map HeapBlock.header, lo ≤ x ∧ x + itemSize ≤ top := by
  intro x hx
  obtain ⟨l, hl, rfl⟩ := List.mem_map.mp hx
  obtain ⟨-, -, h1, h2⟩ := h.laid.mem h.mod l hl
  omega

theorem HeapAt.length_lt {b : HeapBuffer} {s : HeapSys} {lo top : Nat} (h : HeapAt b s lo top) :
    s.live.length < searchBound := by
  have hlen := h.laid.length_le
  have hfits := h.fits
  have hlow := h.low
  rw [gmHeapSize_eq] at hfits
  rw [searchBound_eq]
  omega

theorem gmMalloc_at {b : HeapBuffer} {s : HeapSys} {top size : Nat} (h : HeapAt b s b.base top)
    (h4 : size % 4 = 0) (hroom : top + itemSize + (size + 32) + itemSize ≤ b.base + gmHeapSize) :
    HeapAt b (gmMalloc s size) b.base (top + itemSize + (size + 32)) ∧
      (gmMalloc s size).live = s.live ++ [⟨top + itemSize, alignUp 32 (top + itemSize), size⟩] := by
  obtain ⟨hpos, hbase4, hend⟩ := b.bounds
  have htop4 := h.laid.mod h.mod
  have hrest := h.rest
  have hfits := h.fits
  have havail := h.available
  rw [b.front_base, List.nil_append] at havail
  rw [gmHeapSize_eq] at hroom hrest hfits
  obtain ⟨pm₀, pm', hmalloc, halign, hav, has, hsize, hmagic, hnew, hbeef, hold⟩ :=
    pmallocMemalign_spec havail h.assigned (fun x hx => (h.header_le x hx).2) rfl htop4 h4 (by omega)
      (by rw [wordMod_eq]; omega) (by rw [List.length_map]; exact h.length_lt)
  have heq : gmMalloc s size = { s with
      pm := pm', live := s.live ++ [⟨top + itemSize, alignUp 32 (top + itemSize), size⟩] } := by
    rw [gmMalloc, hmalloc, halign]
  rw [heq]
  have hok : HeapBlock.Ok ⟨top + itemSize, alignUp 32 (top + itemSize), size⟩ pm'.mem top :=
    ⟨rfl, rfl, h4, hsize, hmagic, hbeef⟩
  refine ⟨⟨h.running, hbase4, Nat.le_refl _, ?_, ?_, ?_, ?_, fun hne => absurd rfl hne, ?_⟩, rfl⟩
  · have hlaid : Laid pm'.mem b.base s.live top := by
      apply h.laid.congr h.mod
      intro l hl w hlow hhigh
      apply hold w (h.laid.offLinks h.mod hl hlow hhigh)
      obtain ⟨hlok, hlmod, -, hltop⟩ := h.laid.mem h.mod l hl
      have := (hlok.bounds hlmod).2.2.1
      omega
    exact hlaid.snoc hok
  · rw [gmHeapSize_eq]
    omega
  · rw [List.map_append]
    exact has
  · rw [b.front_base]
    exact hav
  · rw [gmHeapSize_eq]
    show top + itemSize + (size + 32) + itemSize + pm'.mem.size (top + itemSize + (size + 32)) = _
    rw [hnew]
    omega

/-! ### Freeing -/

theorem HeapBuffer.front_headD (b : HeapBuffer) (lo : Nat) : (b.front lo).headD lo = b.base := by
  rw [front]
  split
  · assumption
  · rfl

/-- The items around the first live block. -/
theorem HeapAt.spread {b : HeapBuffer} {s : HeapSys} {lo top : Nat} (h : HeapAt b s lo top)
    (hlt : lo + itemSize ≤ top) : Spread (b.front lo ++ [lo, top]) := by
  obtain ⟨hpos, -⟩ := b.bounds
  have hlow := h.low
  have hfront := h.front
  have h16 : itemSize = 16 := rfl
  have hpair : Spread [lo, top] := by
    refine ⟨?_, fun x hx => ?_⟩
    · simpa using hlt
    · rcases List.mem_cons.mp hx with rfl | hx
      · omega
      · obtain rfl := List.mem_singleton.mp hx
        omega
  rw [HeapBuffer.front]
  split
  · exact hpair
  · rename_i hne
    have hbase := hfront hne
    refine ⟨List.pairwise_cons.mpr ⟨fun x hx => ?_, hpair.apart⟩, fun x hx => ?_⟩
    · rcases List.mem_cons.mp hx with rfl | hx
      · omega
      · obtain rfl := List.mem_singleton.mp hx
        omega
    · rcases List.mem_cons.mp hx with rfl | hx
      · exact hpos
      · exact hpair.pos x hx

/-- What freeing the first live block does to the heap: it is merged into the free
block before it and with the run `zs` of those after it, up to `e`. -/
theorem HeapAt.free {b : HeapBuffer} {s : HeapSys} {lo top e : Nat} {l : HeapBlock} {ls : List HeapBlock}
    (h : HeapAt b s lo top) (hlive : s.live = l :: ls) (zs bs : List Nat) (hafter : zs ++ bs = [top])
    (hrun : FreeRun s.pm.mem (lo + itemSize + (l.size + 32)) zs e) (hend : bs.headD 0 ≠ e)
    (he : e ≤ b.base + gmHeapSize) :
    ∃ pm', gmFree s = { s with pm := pm', live := ls } ∧ ItemList pm'.mem pm'.available (b.base :: bs) ∧
      pm'.mem.size b.base = e - b.base - itemSize ∧ ItemList pm'.mem pm'.assigned (ls.map HeapBlock.header) ∧
      ∀ a, OffLinks (s.live.map HeapBlock.header) a → OffLinks (b.front lo ++ [lo, top]) a → a ≠ b.base + 8 →
        pm'.mem a = s.pm.mem a := by
  obtain ⟨hpos, -, hmax⟩ := b.bounds
  have hlaid := h.laid
  have hassigned := h.assigned
  have h16 : itemSize = 16 := rfl
  rw [hlive] at hlaid hassigned ⊢
  obtain ⟨hok, hrest⟩ := hlaid
  rw [List.map_cons, hok.header_eq] at hassigned ⊢
  have hle := hrest.le
  have hmod : (lo + itemSize + (l.size + 32)) % 4 = 0 := by
    have := hok.size_mod
    have := h.mod
    omega
  have hspread := h.spread (by omega)
  -- the free items stand clear of the blocks that stay in use
  have hclear : Clear (ls.map HeapBlock.header) (b.front lo ++ lo :: (zs ++ bs)) := by
    rw [hafter]
    intro x hx y hy
    obtain ⟨k, hk, rfl⟩ := List.mem_map.mp hx
    obtain ⟨-, -, hlow, hhigh⟩ := hrest.mem hmod k hk
    rcases List.mem_append.mp hy with hm | hm
    · have hlo := h.low
      have hy' : y + itemSize ≤ lo := by
        have hfront := h.front
        rw [HeapBuffer.front] at hm
        split at hm
        · cases hm
        · rename_i hne
          obtain rfl := List.mem_singleton.mp hm
          have := hfront hne
          omega
      exact .inr (by omega)
    · rcases List.mem_cons.mp hm with rfl | hm
      · exact .inr (by omega)
      · obtain rfl := List.mem_singleton.mp hm
        exact .inl (by omega)
  -- the free item in front of the block, if there is one, ends where it begins
  have hfront : b.front lo = [] ∨ ∃ y, b.front lo = [y] ∧ lo = y + itemSize + s.pm.mem.size y := by
    rw [HeapBuffer.front]
    split
    · exact .inl rfl
    · rename_i hne
      exact .inr ⟨b.base, rfl, h.front hne⟩
  have hrun' : FreeRun s.pm.mem (lo + itemSize + s.pm.mem.size lo) zs e := by
    rw [hok.size_eq]
    exact hrun
  have hzs : zs.length + 1 < searchBound := by
    have : (zs ++ bs).length = 1 := by rw [hafter]; rfl
    rw [List.length_append] at this
    rw [searchBound_eq]
    omega
  have havail : ItemList s.pm.mem s.pm.available (b.front lo ++ (zs ++ bs)) := hafter ▸ h.available
  obtain ⟨pm', hfree, hav, hsize, has, hframe⟩ := pmallocFree_spec hassigned havail (hafter.symm ▸ hspread) hclear
    hfront hrun' hend (by rw [wordMod_eq]; rw [gmHeapSize_eq] at he; omega) hzs
  rw [b.front_headD] at hav hsize hframe
  rw [hafter] at hframe
  refine ⟨pm', ?_, hav, hsize, has, hframe⟩
  simp only [gmFree, hlive, pmallocFreealign, hok.found h.mod, hok.mem_eq, Option.bind_some, hfree]

theorem gmFree_at {b : HeapBuffer} {s : HeapSys} {lo top : Nat} {l : HeapBlock} {ls : List HeapBlock}
    (h : HeapAt b s lo top) (hlive : s.live = l :: ls) :
    (gmFree s).live = ls ∧ ∃ lo' top', HeapAt b (gmFree s) lo' top' ∧ (ls = [] → lo' = b.base) := by
  obtain ⟨hpos, hbase4, hmax⟩ := b.bounds
  have h16 : itemSize = 16 := rfl
  have hlaid := h.laid
  rw [hlive] at hlaid
  obtain ⟨hok, hrest⟩ := hlaid
  cases ls with
  | nil =>
    -- the last block: one free block is left
    replace hrest : lo + itemSize + (l.size + 32) = top := hrest
    obtain ⟨pm', heq, hav, hsize, has, -⟩ := h.free hlive [top] [] rfl
      ⟨hrest.symm, by rw [hrest]; exact h.rest⟩ (by show 0 ≠ b.base + gmHeapSize; omega) (Nat.le_refl _)
    rw [heq]
    have hheap := gmHeapSize_eq
    refine ⟨rfl, b.base, b.base, ⟨h.running, hbase4, Nat.le_refl _, rfl, by omega, has, ?_,
      fun hne => absurd rfl hne, ?_⟩, fun _ => rfl⟩
    · rw [b.front_base]
      exact hav
    · show b.base + itemSize + pm'.mem.size b.base = _
      rw [hsize]
      omega
  | cons k ks =>
    have hlen := hrest.length_le
    have hfits := h.fits
    have hlow := h.low
    have hlt : lo + itemSize + (l.size + 32) < top := by
      simp only [List.length_cons] at hlen
      omega
    obtain ⟨pm', heq, hav, hsize, has, hframe⟩ := h.free hlive [] [top] rfl rfl
      (by show top ≠ _; omega) (by omega)
    have hmod : (lo + itemSize + (l.size + 32)) % 4 = 0 := by
      have := hok.size_mod
      have := h.mod
      omega
    have hfront := h.spread (by omega)
    have hnear : ∀ x ∈ b.front lo ++ [lo, top], x = b.base ∨ x = lo ∨ x = top := by
      intro x hx
      rw [HeapBuffer.front] at hx
      split at hx <;> simp at hx <;> omega
    rw [heq]
    refine ⟨rfl, _, top, ⟨h.running, hmod, by omega, ?_, hfits, has, ?_, ?_, ?_⟩, fun hnil => by cases hnil⟩
    · -- the blocks still live
      apply hrest.congr hmod
      intro j hj w hw hwp
      have hjlive : j ∈ s.live := by
        rw [hlive]
        exact List.mem_cons_of_mem l hj
      obtain ⟨hjok, hjmod, hjlow, hjhigh⟩ := hrest.mem hmod j hj
      have hjend := (hjok.bounds hjmod).2.2.1
      apply hframe w (h.laid.offLinks h.mod hjlive hw hwp)
      · intro x hx
        rcases hnear x hx with rfl | rfl | rfl <;> omega
      · omega
    · show ItemList pm'.mem pm'.available (b.front _ ++ [top])
      rw [HeapBuffer.front, if_neg (by omega)]
      exact hav
    · intro _
      show _ = b.base + itemSize + pm'.mem.size b.base
      rw [hsize]
      omega
    · show top + itemSize + pm'.mem.size top = _
      have hsame : pm'.mem.size top = s.pm.mem.size top := by
        apply hframe (top + 8)
        · intro x hx
          have := h.header_le x hx
          omega
        · exact hfront.offLinks (List.mem_append_right _ (by simp)) (by omega)
        · omega
      rw [hsame]
      exact h.rest

/-! ### Writing -/

/-- No header reaches into a block in use. -/
theorem HeapAt.clear {b : HeapBuffer} {s : HeapSys} {lo top : Nat} (h : HeapAt b s lo top) :
    ∀ x ∈ (b.front lo ++ [top]) ++ s.live.map HeapBlock.header, ∀ l ∈ s.live,
      x + itemSize ≤ l.ptr ∨ l.ptr + l.size ≤ x := by
  intro x hx l hl
  have h16 : itemSize = 16 := rfl
  obtain ⟨hok, hmod, hlow, hhigh⟩ := h.laid.mem h.mod l hl
  obtain ⟨-, hstart, hend, -⟩ := hok.bounds hmod
  rcases List.mem_append.mp hx with hx | hx
  · rcases List.mem_append.mp hx with hx | hx
    · have hfront := h.front
      rw [HeapBuffer.front] at hx
      split at hx
      · cases hx
      · rename_i hne
        obtain rfl := List.mem_singleton.mp hx
        have := hfront hne
        omega
    · obtain rfl := List.mem_singleton.mp hx
      omega
  · obtain ⟨k, hk, rfl⟩ := List.mem_map.mp hx
    rcases h.laid.far h.mod k hk l hl with rfl | hkl | hlk <;> omega

/-- A write to a block in use touches no header and no padding. -/
theorem write_at {b : HeapBuffer} {s : HeapSys} {lo top : Nat} {l : HeapBlock} (h : HeapAt b s lo top)
    (hl : l ∈ s.live) (data : Nat → UInt32) :
    HeapAt b { s with pm := { s.pm with mem := l.overwrite data s.pm.mem } } lo top := by
  have h16 : itemSize = 16 := rfl
  obtain ⟨hok, hlmod, -⟩ := h.laid.mem h.mod l hl
  obtain ⟨-, hstart, hend, -⟩ := hok.bounds hlmod
  have hout : ∀ w, w < l.ptr ∨ l.ptr + l.size ≤ w → l.overwrite data s.pm.mem w = s.pm.mem w := by
    intro w hw
    rw [HeapBlock.overwrite, if_neg]
    omega
  -- headers and padding lie outside the block
  have hheader : ∀ x ∈ (b.front lo ++ [top]) ++ s.live.map HeapBlock.header, ∀ d, d < 16 →
      l.overwrite data s.pm.mem (x + d) = s.pm.mem (x + d) := by
    intro x hx d hd
    have := h.clear x hx l hl
    exact hout _ (by omega)
  have hfree : ∀ x ∈ b.front lo ++ [top], ∀ d, d < 16 →
      l.overwrite data s.pm.mem (x + d) = s.pm.mem (x + d) := fun x hx =>
    hheader x (List.mem_append_left _ hx)
  refine ⟨h.running, h.mod, h.low, ?_, h.fits, ?_, ?_, fun hne => ?_, ?_⟩
  -- the headers of the blocks in use
  · apply h.laid.congr h.mod
    intro k hk w hw hwp
    obtain ⟨hkok, hkmod, -⟩ := h.laid.mem h.mod k hk
    have hkend := (hkok.bounds hkmod).2.2.1
    apply hout
    rcases h.laid.far h.mod k hk l hl with rfl | hkl | hlk <;> omega
  · apply h.assigned.congr
    intro x hx
    have hx' := hheader x (List.mem_append_right _ hx)
    exact ⟨hx' 0 (by omega), hx' 4 (by omega)⟩
  · apply h.available.congr
    intro x hx
    exact ⟨hfree x hx 0 (by omega), hfree x hx 4 (by omega)⟩
  · have hm : b.base ∈ b.front lo ++ [top] := by
      rw [HeapBuffer.front, if_neg hne]
      exact List.mem_cons_self
    have hsize : HeapMem.size (l.overwrite data s.pm.mem) b.base = s.pm.mem.size b.base :=
      hfree b.base hm 8 (by omega)
    show lo = b.base + itemSize + HeapMem.size (l.overwrite data s.pm.mem) b.base
    rw [hsize]
    exact h.front hne
  · have hsize : HeapMem.size (l.overwrite data s.pm.mem) top = s.pm.mem.size top :=
      hfree top (List.mem_append_right _ (List.mem_singleton_self top)) 8 (by omega)
    show top + itemSize + HeapMem.size (l.overwrite data s.pm.mem) top = _
    rw [hsize]
    exact h.rest

/-! ## A session -/

/-- What the phase says of the blocks in use. -/
def PhaseFits (b : HeapBuffer) (lo : Nat) (live : List HeapBlock) : HeapPhase → Prop
  | .boot => live = [] ∧ lo = b.base
  | .logo => ∃ l, live = [l] ∧ lo = b.base
  | .filling n => live.length = n ∧ n ≤ maxPaths ∧ lo = b.base ∧ ∀ l ∈ live, l.size = gmFileEntrySize
  | .draining n => live.length = n ∧ 0 < n ∧ n ≤ maxPaths ∧ ∀ l ∈ live, l.size = gmFileEntrySize

def HeapInv (b : HeapBuffer) (p : HeapPhase) (s : HeapSys) : Prop :=
  ∃ lo top, HeapAt b s lo top ∧ PhaseFits b lo s.live p

/-- Another entry fits as long as the folder is not full. -/
theorem mallocEntry_inv {b : HeapBuffer} {s : HeapSys} {top n : Nat} (h : HeapAt b s b.base top)
    (hn : s.live.length = n) (hlt : n < maxPaths) (hsize : ∀ l ∈ s.live, l.size = gmFileEntrySize) :
    HeapInv b (.filling (n + 1)) (gmMalloc s gmFileEntrySize) := by
  have htop := h.laid.length hsize
  have hroom : top + itemSize + (gmFileEntrySize + 32) + itemSize ≤ b.base + gmHeapSize := by
    rw [hn] at htop
    rw [gmHeapSize_eq]
    simp only [maxPaths] at hlt
    simp only [gmFileEntrySize, itemSize] at htop ⊢
    omega
  obtain ⟨hat, hlive⟩ := gmMalloc_at h (by decide) hroom
  refine ⟨_, _, hat, ?_, hlt, rfl, ?_⟩
  · rw [hlive, List.length_append, hn]
    rfl
  · intro l hl
    rw [hlive] at hl
    rcases List.mem_append.mp hl with hm | hm
    · exact hsize l hm
    · obtain rfl := List.mem_singleton.mp hm
      rfl

theorem freeEntry_inv {b : HeapBuffer} {s : HeapSys} {lo top n : Nat} (h : HeapAt b s lo top)
    (hn : s.live.length = n) (h0 : 0 < n) (hle : n ≤ maxPaths) (hsize : ∀ l ∈ s.live, l.size = gmFileEntrySize) :
    HeapInv b (if n ≤ 1 then .filling 0 else .draining (n - 1)) (gmFree s) := by
  cases hlive : s.live with
  | nil =>
    rw [hlive] at hn
    exact absurd hn (Nat.ne_of_lt h0)
  | cons l ls =>
    rw [hlive, List.length_cons] at hn
    obtain ⟨hrest, lo', top', hat, hlast⟩ := gmFree_at h hlive
    have hsize' : ∀ k ∈ ls, k.size = gmFileEntrySize := fun k hk =>
      hsize k (hlive ▸ List.mem_cons_of_mem l hk)
    refine ⟨lo', top', hat, ?_⟩
    rw [hrest]
    split
    · have hnil : ls = [] := List.eq_nil_of_length_eq_zero (by omega)
      exact ⟨by rw [hnil]; rfl, Nat.zero_le _, hlast hnil, hsize'⟩
    · exact ⟨by omega, by omega, by omega, hsize'⟩

theorem heapStep_inv {b : HeapBuffer} {p : HeapPhase} {s : HeapSys} {op : HeapOp} (h : HeapInv b p s)
    (hc : Called p op) : HeapInv b (phaseStep p op) (heapStep s op) := by
  obtain ⟨lo, top, hat, hfits⟩ := h
  cases op with
  | write i data =>
    simp only [phaseStep, heapStep]
    cases hl : s.live[i]? with
    | none => exact ⟨lo, top, hat, hfits⟩
    | some l => exact ⟨lo, top, write_at hat (List.mem_of_getElem? hl) data, hfits⟩
  | mallocLogo =>
    cases p with
    | boot =>
      obtain ⟨hnil, rfl⟩ := hfits
      -- nothing is in use, so the free item is the whole heap
      have htop : b.base = top := by
        have := hat.laid
        rw [hnil] at this
        exact this
      have hroom : top + itemSize + (cubeLogoSize + 32) + itemSize ≤ b.base + gmHeapSize := by
        rw [gmHeapSize_eq]
        simp only [cubeLogoSize, itemSize]
        omega
      obtain ⟨hat', hlive⟩ := gmMalloc_at hat (by decide) hroom
      exact ⟨_, _, hat', _, by rw [heapStep, hlive, hnil]; rfl, rfl⟩
    | logo | filling n | draining n => exact absurd hc id
  | mallocEntry =>
    cases p with
    | boot =>
      obtain ⟨hnil, rfl⟩ := hfits
      -- a folder is read with no logo before it
      exact mallocEntry_inv hat (by rw [hnil]; rfl) (by decide) (by rw [hnil]; intro l hl; cases hl)
    | filling n =>
      obtain ⟨hn, -, rfl, hsize⟩ := hfits
      exact mallocEntry_inv hat hn hc hsize
    | logo | draining n => exact absurd hc id
  | free =>
    cases p with
    | boot => exact absurd hc id
    | logo =>
      obtain ⟨l, hlive, rfl⟩ := hfits
      -- the logo goes, and the heap is whole again
      obtain ⟨hrest, lo', top', hat', hlast⟩ := gmFree_at hat hlive
      refine ⟨lo', top', hat', ?_⟩
      show PhaseFits b lo' (gmFree s).live (.filling 0)
      rw [hrest]
      exact ⟨rfl, Nat.zero_le _, hlast rfl, fun k hk => by cases hk⟩
    | filling n =>
      obtain ⟨hn, hle, -, hsize⟩ := hfits
      exact freeEntry_inv hat hn hc hle hsize
    | draining n =>
      obtain ⟨hn, -, hle, hsize⟩ := hfits
      exact freeEntry_inv hat hn hc hle hsize

theorem heapInv_run {b : HeapBuffer} : ∀ {ops : List HeapOp} {p : HeapPhase} {s : HeapSys}, HeapInv b p s →
    Steps.Guarded phaseStep Called p ops → HeapInv b (Steps.run phaseStep p ops) (Steps.run heapStep s ops)
  | [], _, _, h, _ => h
  | _ :: _, _, _, h, ⟨hc, hrest⟩ => by
    rw [Steps.run_cons, Steps.run_cons]
    exact heapInv_run (heapStep_inv h hc) hrest

theorem PhaseFits.length {b : HeapBuffer} {lo : Nat} {live : List HeapBlock} {p : HeapPhase}
    (h : PhaseFits b lo live p) : live.length = p.live := by
  cases p with
  | boot => rw [h.1]; rfl
  | logo =>
    obtain ⟨l, rfl, -⟩ := h
    rfl
  | filling n | draining n => exact h.1

theorem PhaseFits.low {b : HeapBuffer} {lo : Nat} {p : HeapPhase} (h : PhaseFits b lo [] p) : lo = b.base := by
  cases p with
  | boot => exact h.2
  | logo =>
    obtain ⟨l, hl, -⟩ := h
    cases hl
  | filling n => exact h.2.2.1
  | draining n =>
    obtain ⟨hn, h0, -⟩ := h
    exact absurd hn (Nat.ne_of_lt h0)

theorem ItemList.walk {m : HeapMem} {root : Nat} {hs : List Nat} (h : ItemList m root hs)
    (hlen : hs.length < searchBound) : DList.walk m.links 0 searchBound root = some hs := by
  rw [h.root_eq]
  apply DList.walk_threaded h.links _ hlen
  intro hm
  exact absurd (h.pos 0 hm) (Nat.lt_irrefl 0)

theorem HeapAt.headers_eq {b : HeapBuffer} {s : HeapSys} {lo top : Nat} (h : HeapAt b s lo top) :
    s.pm.headers = some ((b.front lo ++ [top]) ++ s.live.map HeapBlock.header) := by
  have havail : (b.front lo ++ [top]).length < searchBound := by
    rw [HeapBuffer.front, searchBound_eq]
    split <;> simp
  have hassigned : (s.live.map HeapBlock.header).length < searchBound := by
    rw [List.length_map]
    exact h.length_lt
  rw [Pmalloc.headers, h.available.walk havail, h.assigned.walk hassigned]
  rfl

theorem HeapAt.sound {b : HeapBuffer} {s : HeapSys} {lo top : Nat} (h : HeapAt b s lo top)
    (hempty : s.live = [] → lo = b.base) : HeapSound b s := by
  obtain ⟨hpos, -⟩ := b.bounds
  have h16 : itemSize = 16 := rfl
  have hlow := h.low
  have hfits := h.fits
  constructor
  · exact h.running
  · intro l hl
    obtain ⟨hok, hmod, h1, h2⟩ := h.laid.mem h.mod l hl
    obtain ⟨halign, h3, h4, -⟩ := hok.bounds hmod
    exact ⟨by omega, halign, by omega, by omega⟩
  · apply (h.laid.apart h.mod).imp_of_mem
    intro k l hk hl hkl
    obtain ⟨hkok, hkmod, -⟩ := h.laid.mem h.mod k hk
    obtain ⟨hlok, hlmod, -⟩ := h.laid.mem h.mod l hl
    obtain ⟨-, -, hkend, -⟩ := hkok.bounds hkmod
    obtain ⟨-, hlstart, -⟩ := hlok.bounds hlmod
    exact .inl (by omega)
  · exact ⟨_, h.headers_eq, h.clear⟩
  · intro l hl
    obtain ⟨hok, hmod, -⟩ := h.laid.mem h.mod l hl
    exact hok.found hmod
  · intro hnil
    have hlo := hempty hnil
    have htop : lo = top := by
      have := h.laid
      rw [hnil] at this
      exact this
    have hassigned := h.assigned
    have hrest := h.rest
    have hheaders := h.headers_eq
    rw [hnil] at hassigned hheaders
    rw [← htop, hlo] at hrest hheaders
    rw [b.front_base] at hheaders
    exact ⟨hheaders, hassigned.root_eq, by omega⟩

/-- Over every session, whatever the memory held at power-on and whatever is
written to the blocks: no allocation fails or overlaps, every free finds its own
header, and an emptied folder leaves one free block. -/
theorem heap_survives (b : HeapBuffer) (garbage : Nat → UInt32) (ops : List HeapOp)
    (h : Steps.Guarded phaseStep Called .boot ops) :
    HeapSound b (Steps.run heapStep (gmInitHeap b garbage) ops) ∧
      (Steps.run heapStep (gmInitHeap b garbage) ops).live.length = (Steps.run phaseStep .boot ops).live := by
  obtain ⟨hat, hlive⟩ := gmInitHeap_at b garbage
  have hstart : HeapInv b .boot (gmInitHeap b garbage) := ⟨_, _, hat, hlive, rfl⟩
  obtain ⟨lo, top, hat', hfits⟩ := heapInv_run hstart h
  exact ⟨hat'.sound fun hnil => (hnil ▸ hfits).low, hfits.length⟩

/-- The logo, then a folder of two entries, the first of them full of magic words. -/
def logoThenFolder : List HeapOp :=
  [.mallocLogo, .write 0 fun _ => 0xFEEDFACE, .free, .mallocEntry, .mallocEntry,
    .write 0 fun _ => 0xFEEDFACE, .free, .free]

def lowBuffer : HeapBuffer := ⟨0x80200000, by decide, by decide, by rw [gmHeapSize_eq]; decide⟩

theorem heap_survives_logo :
    HeapSound lowBuffer (Steps.run heapStep (gmInitHeap lowBuffer fun _ => 0) logoThenFolder) ∧
      (Steps.run heapStep (gmInitHeap lowBuffer fun _ => 0) logoThenFolder).live.length =
        (Steps.run phaseStep .boot logoThenFolder).live :=
  heap_survives lowBuffer (fun _ => 0) logoThenFolder (by decide)

end Cubiboot
