import Mathlib.Algebra.Ring.Nat
import Mathlib.Tactic.Common
import Cubiboot.Lib.Threaded

/-
  The heap (`pmalloc.c`): first fit over an address-ordered free list, its links
  threaded through the block headers.

  Memory is words at byte addresses that are multiples of four; a pointer is its
  address and `NULL` is 0. A header is four words: `prev`, `next`, `size` and
  `magic`. A loop that has not ended after `searchBound` rounds answers `none`.

  The routines leave two links alone that they could have set: an insert before
  the root keeps the node's `prev` and one at the end its `next`, whatever they
  were. So the specifications ask for a node with both links clear.

  What is proved here is `itemRemove_listed` and `itemInsert_listed`: what taking
  an item out of a list and putting one in do to the list and to the rest of
  memory. `PmallocSpec` has the routines over them.

  Correspondence (C ↔ Lean):
    `pmalloc_t`, `pmalloc_item_t`           ↔ `Pmalloc`, words at `p`, `p + 4`, `p + 8`, `p + 12`
    `pmalloc_init`, `pmalloc_addblock`      ↔ `pmallocInit`, `pmallocAddblock`
    `pmalloc_malloc`, `pmalloc_free`        ↔ `pmallocMalloc`, `pmallocFree`
    `pmalloc_merge`                         ↔ `mergeBackward`, `mergeForward`, `pmallocMerge`
    `pmalloc_item_insert`, `_remove`        ↔ `itemInsert`, `itemRemove`
    `pmalloc_memalign`, `pmalloc_freealign` ↔ `pmallocMemalign`, `pmallocFreealign`
-/

set_option autoImplicit false

namespace Cubiboot

abbrev HeapMem := Nat → Nat

/-- Words are 32 bits. -/
@[irreducible] def wordMod : Nat := 2 ^ 32

theorem wordMod_eq : wordMod = 4294967296 := by
  unfold wordMod
  rfl

/-- More rounds than there are words of memory. -/
@[irreducible] def searchBound : Nat := 2 ^ 30

theorem searchBound_eq : searchBound = 1073741824 := by
  unfold searchBound
  rfl

/-- `sizeof(pmalloc_item_t)`. -/
def itemSize : Nat := 16

def feedFace : Nat := 0xFEEDFACE
def deadBeef : Nat := 0xDEADBEEF

namespace HeapMem

def prev (m : HeapMem) (p : Nat) : Nat := m p
def next (m : HeapMem) (p : Nat) : Nat := m (p + 4)
def size (m : HeapMem) (p : Nat) : Nat := m (p + 8)
def magic (m : HeapMem) (p : Nat) : Nat := m (p + 12)

def setPrev (m : HeapMem) (p w : Nat) : HeapMem := Function.update m p w
def setNext (m : HeapMem) (p w : Nat) : HeapMem := Function.update m (p + 4) w
def setSize (m : HeapMem) (p w : Nat) : HeapMem := Function.update m (p + 8) w
def setMagic (m : HeapMem) (p w : Nat) : HeapMem := Function.update m (p + 12) w

end HeapMem

structure Pmalloc where
  mem : HeapMem
  available : Nat
  assigned : Nat
  freemem : Nat
  totalmem : Nat
  totalnodes : Nat

/-! ## The lists -/

/-- Where in the list `node` goes: the last item before it. -/
def seekItem (m : HeapMem) (node : Nat) : Nat → Nat → Option Nat
  | 0, _ => none
  | fuel + 1, current =>
    if m.next current ≠ 0 ∧ m.next current < node then seekItem m node fuel (m.next current) else some current

def itemInsert (m : HeapMem) (root node : Nat) : Option (HeapMem × Nat) :=
  if root = 0 then some ((m.setPrev node 0).setNext node 0, node)
  else if node < root then
    -- `node->prev` is not written
    some ((m.setPrev root node).setNext node root, node)
  else
    (seekItem m node searchBound root).map fun current =>
      if m.next current = 0 then
        -- `node->next` is not written
        ((m.setPrev node current).setNext current node, root)
      else
        let oldnext := m.next current
        ((((m.setNext current node).setPrev node current).setNext node oldnext).setPrev oldnext node, root)

def itemRemove (m : HeapMem) (root node : Nat) : HeapMem × Nat :=
  let m := if m.prev node ≠ 0 then m.setNext (m.prev node) (m.next node) else m
  let m := if m.next node ≠ 0 then m.setPrev (m.next node) (m.prev node) else m
  let root := if node = root then (if m.prev node ≠ 0 then m.prev node else m.next node) else root
  ((m.setNext node 0).setPrev node 0, root)

/-! ## Allocation -/

def mergeBackward (m : HeapMem) : Nat → Nat → Option Nat
  | 0, _ => none
  | fuel + 1, node =>
    if m.prev node ≠ 0 ∧ node = m.prev node + itemSize + m.size (m.prev node) then
      mergeBackward m fuel (m.prev node)
    else some node

def mergeForward (node : Nat) : Nat → Pmalloc → Option Pmalloc
  | 0, _ => none
  | fuel + 1, pm =>
    if pm.mem.next node = node + itemSize + pm.mem.size node then
      let nodesize := pm.mem.size (pm.mem.next node) + itemSize
      let (mem, available) := itemRemove pm.mem pm.available (pm.mem.next node)
      mergeForward node fuel
        { pm with
          mem := mem.setSize node ((mem.size node + nodesize) % wordMod)
          available := available
          freemem := (pm.freemem + itemSize) % wordMod
          totalnodes := (pm.totalnodes + wordMod - 1) % wordMod }
    else some pm

def pmallocMerge (pm : Pmalloc) (node : Nat) : Option Pmalloc :=
  (mergeBackward pm.mem searchBound node).bind fun node => mergeForward node searchBound pm

/-- The memory is what it was before anybody wrote to it. -/
def pmallocInit (mem : HeapMem) : Pmalloc := ⟨mem, 0, 0, 0, 0, 0⟩

def pmallocAddblock (pm : Pmalloc) (ptr size : Nat) : Option Pmalloc :=
  let ptralignd := (ptr + 3) / 4 * 4
  let size := size - (ptralignd - ptr)
  let mem := pm.mem.setSize ptralignd (size - itemSize)
  let freemem := (pm.freemem + mem.size ptralignd) % wordMod
  (itemInsert mem pm.available ptralignd).map fun (mem, available) =>
    { pm with
      mem := mem, available := available, freemem := freemem,
      totalmem := (pm.totalmem + freemem) % wordMod,
      totalnodes := (pm.totalnodes + 1) % wordMod }

/-- The first free block that is large enough, 0 if there is none. -/
def firstFit (m : HeapMem) (size : Nat) : Nat → Nat → Option Nat
  | 0, _ => none
  | fuel + 1, current =>
    if current ≠ 0 ∧ m.size current < size then firstFit m size fuel (m.next current) else some current

/-- The remainder of `current` becomes a free block. Its `next` is taken from the
assigned list, which ends at `current` from here on. -/
def splitBlock (pm : Pmalloc) (current size : Nat) : Option Pmalloc :=
  let newfree := current + itemSize + size
  let mem := pm.mem.setSize newfree ((pm.mem.size current + 2 * wordMod - itemSize - size) % wordMod)
  let mem := mem.setNext newfree (mem.next current)
  let mem := mem.setNext current 0
  let mem := mem.setSize current size
  (itemInsert mem pm.available newfree).bind fun (mem, available) =>
    pmallocMerge
      { pm with
        mem := mem, available := available,
        freemem := (pm.freemem + wordMod - itemSize) % wordMod,
        totalnodes := (pm.totalnodes + 1) % wordMod }
      newfree

def pmallocMalloc (pm : Pmalloc) (size : Nat) : Option (Pmalloc × Nat) :=
  let size := (size + 3) % wordMod / 4 * 4
  (firstFit pm.mem size searchBound pm.available).bind fun current =>
    if current = 0 then some (pm, 0)
    else
      let mem := pm.mem.setMagic current feedFace
      let (mem, available) := itemRemove mem pm.available current
      (itemInsert mem pm.assigned current).bind fun (mem, assigned) =>
        let pm := { pm with mem := mem, available := available, assigned := assigned }
        (if mem.size current ≠ size then splitBlock pm current size else some pm).map fun pm =>
          ({ pm with freemem := (pm.freemem + wordMod - pm.mem.size current) % wordMod }, current + itemSize)

def pmallocFree (pm : Pmalloc) (ptr : Nat) : Option Pmalloc :=
  if ptr = 0 then some pm
  else
    let node := ptr - itemSize
    let (mem, assigned) := itemRemove pm.mem pm.assigned node
    let freemem := (pm.freemem + mem.size node) % wordMod
    (itemInsert mem pm.available node).bind fun (mem, available) =>
      pmallocMerge { pm with mem := mem, available := available, assigned := assigned, freemem := freemem } node

/-! ## Alignment -/

/-- `align` is a power of two. -/
def alignUp (align p : Nat) : Nat := (p + align - 1) / align * align

/-- `0xDEADBEEF` in the `n` words from `p`. -/
def fillPadding (p : Nat) : Nat → HeapMem → HeapMem
  | 0, m => m
  | n + 1, m => Function.update (fillPadding p n m) (p + 4 * n) deadBeef

def pmallocMemalign (pm : Pmalloc) (size align : Nat) : Option (Pmalloc × Nat) :=
  (pmallocMalloc pm ((size + align) % wordMod)).map fun (pm, mem) =>
    if mem = 0 then (pm, 0)
    else
      let memalignd := alignUp align mem
      ({ pm with mem := fillPadding mem ((memalignd - mem) / 4) pm.mem }, memalignd)

/-- The address after the nearest magic word below. -/
def findHeader (m : HeapMem) : Nat → Nat → Option Nat
  | 0, _ => none
  | fuel + 1, p => if m (p - 4) ≠ feedFace then findHeader m fuel (p - 4) else some p

def pmallocFreealign (pm : Pmalloc) (ptr : Nat) : Option Pmalloc :=
  (findHeader pm.mem searchBound ptr).bind (pmallocFree pm)

/-! ## Lists of items -/

def HeapMem.links (m : HeapMem) : DList.Links Nat := ⟨m.prev, m.next⟩

/-- Items in address order, clear of each other. -/
structure Spread (hs : List Nat) : Prop where
  apart : hs.Pairwise fun a b => a + itemSize ≤ b
  pos : ∀ h ∈ hs, 0 < h

theorem Spread.far {hs : List Nat} (h : Spread hs) :
    ∀ a ∈ hs, ∀ b ∈ hs, a = b ∨ a + itemSize ≤ b ∨ b + itemSize ≤ a := by
  intro a ha b hb
  apply List.Pairwise.forall_of_forall_of_flip (l := hs)
    (R := fun a b => a = b ∨ a + itemSize ≤ b ∨ b + itemSize ≤ a)
  · exact fun c _ => .inl rfl
  · exact h.apart.imp fun hab => .inr (.inl hab)
  · exact h.apart.imp fun hab => .inr (.inr hab)
  · exact ha
  · exact hb

/-- `root` is the list of the items `hs`. -/
structure ItemList (m : HeapMem) (root : Nat) (hs : List Nat) : Prop extends Spread hs where
  root_eq : root = hs.headD 0
  links : DList.Threaded m.links 0 hs 0

/-- The word at `a` is no link of `hs`. -/
def OffLinks (hs : List Nat) (a : Nat) : Prop := ∀ h ∈ hs, a ≠ h ∧ a ≠ h + 4

theorem Spread.nodup {hs : List Nat} (h : Spread hs) : hs.Nodup := by
  apply h.apart.imp
  intro a b hab he
  simp only [itemSize] at hab
  omega

theorem ItemList.congr {m m' : HeapMem} {root : Nat} {hs : List Nat} (h : ItemList m root hs)
    (heq : ∀ a ∈ hs, m' a = m a ∧ m' (a + 4) = m (a + 4)) : ItemList m' root hs := by
  refine ⟨h.toSpread, h.root_eq, DList.threaded_congr h.links ?_ ?_⟩
  · intro a ha
    exact (heq a ha).1
  · intro a ha
    exact (heq a ha).2

/-- The items before and after one of them. -/
theorem ItemList.around {m : HeapMem} {root x : Nat} {as bs : List Nat} (h : ItemList m root (as ++ x :: bs)) :
    (∀ a ∈ as, a + itemSize ≤ x) ∧ (∀ b ∈ bs, x + itemSize ≤ b) ∧
      m.prev x = as.getLastD 0 ∧ m.next x = bs.headD 0 := by
  obtain ⟨-, hx, hcross⟩ := List.pairwise_append.mp h.apart
  obtain ⟨-, hprev, hnext, -⟩ := DList.threaded_append.mp h.links
  refine ⟨fun a ha => hcross a ha x List.mem_cons_self, ?_, hprev, hnext⟩
  exact (List.pairwise_cons.mp hx).1

theorem getLastD_mem {as : List Nat} (h : as.getLastD 0 ≠ 0) : as.getLast? = some (as.getLastD 0) := by
  cases as with
  | nil => exact absurd rfl h
  | cons a as => rw [List.getLastD_eq_getLast?, List.getLast?_cons, Option.getD_some]

theorem headD_mem {bs : List Nat} (h : bs.headD 0 ≠ 0) : bs.head? = some (bs.headD 0) := by
  cases bs with
  | nil => exact absurd rfl h
  | cons b bs => rfl

/-- Memory with the links of `x` set to `u` and `v`, the back link of `n` to `w`
and the forward link of `p` to `z`; 0 has no links. -/
def rewire (m : HeapMem) (p x n u v w z : Nat) : HeapMem := fun a =>
  if a = x then u else if a = x + 4 then v else if n ≠ 0 ∧ a = n then w
  else if p ≠ 0 ∧ a = p + 4 then z else m a

/-- What rewiring `x` between `as` and `bs` does to the links of all three. -/
structure Rewired (m m' : HeapMem) (as : List Nat) (x : Nat) (bs : List Nat) (u v w z : Nat) : Prop where
  back : ∀ a ∈ as ++ bs, bs.head? ≠ some a → m' a = m a
  forth : ∀ a ∈ as ++ bs, as.getLast? ≠ some a → m' (a + 4) = m (a + 4)
  last : ∀ a, as.getLast? = some a → m' (a + 4) = z
  first : ∀ b, bs.head? = some b → m' b = w
  item : m' x = u ∧ m' (x + 4) = v
  frame : ∀ a, OffLinks (as ++ x :: bs) a → m' a = m a

theorem rewire_rewired (m : HeapMem) {as bs : List Nat} {x : Nat} (h : Spread (as ++ x :: bs)) (u v w z : Nat) :
    Rewired m (rewire m (as.getLastD 0) x (bs.headD 0) u v w z) as x bs u v w z := by
  have hp : as.getLastD 0 ≠ 0 → as.getLast? = some (as.getLastD 0) := getLastD_mem
  have hn : bs.headD 0 ≠ 0 → bs.head? = some (bs.headD 0) := headD_mem
  have hpe : ∀ a, as.getLast? = some a → as.getLastD 0 = a := fun a ha => by
    rw [List.getLastD_eq_getLast?, ha, Option.getD_some]
  have hne : ∀ b, bs.head? = some b → bs.headD 0 = b := fun b hb => by
    rw [List.headD_eq_head?_getD, hb, Option.getD_some]
  generalize as.getLastD 0 = p at hp hpe
  generalize bs.headD 0 = n at hn hne
  have hpm : p ≠ 0 → p ∈ as ++ x :: bs := fun h0 => List.mem_append_left _ (List.mem_of_getLast? (hp h0))
  have hnm : n ≠ 0 → n ∈ as ++ x :: bs := fun h0 =>
    List.mem_append_right as (List.mem_cons_of_mem x (List.mem_of_head? (hn h0)))
  have hmem : ∀ a ∈ as ++ bs, a ∈ as ++ x :: bs := fun a ha =>
    (List.Sublist.append_left (List.sublist_cons_self x bs) as).subset ha
  -- items do not overlap
  have hfar : ∀ a ∈ as ++ x :: bs, ∀ b ∈ as ++ x :: bs, a ≠ b + 4 := by
    intro a ha b hb
    have := h.far a ha b hb
    simp only [itemSize] at this
    omega
  have hx : ∀ a ∈ as ++ bs, a ≠ x ∧ a ≠ x + 4 ∧ a + 4 ≠ x := by
    intro a ha
    have hxm : x ∈ as ++ x :: bs := List.mem_append_right as List.mem_cons_self
    refine ⟨?_, hfar a (hmem a ha) x hxm, fun he => hfar x hxm a (hmem a ha) he.symm⟩
    rintro rfl
    exact (List.nodup_cons.mp (List.nodup_middle.mp h.nodup)).1 ha
  have hback : ∀ a ∈ as ++ bs, ¬ (n ≠ 0 ∧ a = n) → rewire m p x n u v w z a = m a := by
    intro a ha hn'
    obtain ⟨h1, h2, -⟩ := hx a ha
    rw [rewire, if_neg h1, if_neg h2, if_neg hn', if_neg]
    intro ⟨h0, he⟩
    exact hfar a (hmem a ha) p (hpm h0) he
  have hforth : ∀ a ∈ as ++ bs, ¬ (n ≠ 0 ∧ a + 4 = n) := by
    intro a ha ⟨h0, he⟩
    exact hfar n (hnm h0) a (hmem a ha) he.symm
  constructor
  · intro a ha hfirst
    apply hback a ha
    rintro ⟨h0, rfl⟩
    exact hfirst (hn h0)
  · intro a ha hlast
    obtain ⟨h1, -, h3⟩ := hx a ha
    rw [rewire, if_neg h3, if_neg (by omega), if_neg (hforth a ha), if_neg]
    intro ⟨h0, he⟩
    obtain rfl : a = p := Nat.add_right_cancel he
    exact hlast (hp h0)
  · intro a hlast
    have ha : a ∈ as ++ bs := List.mem_append_left bs (List.mem_of_getLast? hlast)
    obtain ⟨h1, -, h3⟩ := hx a ha
    have h0 := h.pos a (hmem a ha)
    have hpa := hpe a hlast
    rw [rewire, if_neg h3, if_neg (by omega), if_neg (hforth a ha), if_pos (by omega)]
  · intro b hfirst
    have hb : b ∈ as ++ bs := List.mem_append_right as (List.mem_of_head? hfirst)
    obtain ⟨h1, h2, -⟩ := hx b hb
    have h0 := h.pos b (hmem b hb)
    have hnb := hne b hfirst
    rw [rewire, if_neg h1, if_neg h2, if_pos (by omega)]
  · exact ⟨if_pos rfl, by rw [rewire, if_neg (by omega), if_pos rfl]⟩
  · intro a ha
    obtain ⟨h1, h2⟩ := ha x (List.mem_append_right as List.mem_cons_self)
    rw [rewire, if_neg h1, if_neg h2, if_neg, if_neg]
    · intro ⟨h0, he⟩
      exact (ha p (hpm h0)).2 he
    · intro ⟨h0, he⟩
      exact (ha n (hnm h0)).1 he

/-- Size and magic of an item are nobody's links. -/
theorem Spread.offLinks {hs : List Nat} (h : Spread hs) {x d : Nat} (hx : x ∈ hs) (hd : 4 < d ∧ d < 16) :
    OffLinks hs (x + d) := by
  intro a ha
  have := h.far x hx a ha
  simp only [itemSize] at this
  omega

theorem OffLinks.mono {hs hs' : List Nat} {a : Nat} (h : OffLinks hs a) (hsub : hs' ⊆ hs) : OffLinks hs' a :=
  fun x hx => h x (hsub hx)

/-- A write off the links leaves the list as it is. -/
theorem ItemList.update {m : HeapMem} {root : Nat} {hs : List Nat} (h : ItemList m root hs) {a : Nat}
    (ha : OffLinks hs a) (w : Nat) : ItemList (Function.update m a w) root hs := by
  apply h.congr
  intro x hx
  obtain ⟨h1, h2⟩ := ha x hx
  exact ⟨Function.update_of_ne (Ne.symm h1) _ _, Function.update_of_ne (Ne.symm h2) _ _⟩

/-! ### Taking an item out -/

theorem itemRemove_eq {m : HeapMem} (root : Nat) {p x n : Nat} (hp : m.prev x = p) (hn : m.next x = n)
    (hpx : p ≠ 0 → p + itemSize ≤ x) (hxn : n ≠ 0 → x + itemSize ≤ n) :
    itemRemove m root x =
      (rewire m p x n 0 0 p n, if x = root then (if p ≠ 0 then p else n) else root) := by
  simp only [itemSize] at hpx hxn
  -- neither write to a neighbour changes the item's own links
  have hlinks : ∀ m' : HeapMem, m' = (if p ≠ 0 then m.setNext p n else m) → m'.prev x = p ∧ m'.next x = n := by
    rintro m' rfl
    split
    · rename_i h
      have := hpx h
      rw [HeapMem.next, HeapMem.prev, HeapMem.setNext, Function.update_of_ne (by omega),
        Function.update_of_ne (by omega)]
      exact ⟨hp, hn⟩
    · exact ⟨hp, hn⟩
  have hlinks' : ∀ m' m'' : HeapMem, m'.prev x = p ∧ m'.next x = n →
      m'' = (if n ≠ 0 then m'.setPrev n p else m') → m''.prev x = p ∧ m''.next x = n := by
    rintro m' m'' hm' rfl
    split
    · rename_i h
      have := hxn h
      rw [HeapMem.next, HeapMem.prev, HeapMem.setPrev, Function.update_of_ne (by omega),
        Function.update_of_ne (by omega)]
      exact hm'
    · exact hm'
  obtain ⟨h1, h2⟩ := hlinks _ rfl
  obtain ⟨h3, h4⟩ := hlinks' _ _ ⟨h1, h2⟩ rfl
  simp only [itemRemove, hp, hn, h1, h2, h3, h4]
  refine Prod.ext ?_ rfl
  funext a
  simp only [HeapMem.setPrev, HeapMem.setNext, rewire, Function.update_apply]
  by_cases ha : a = x
  · rw [if_pos ha, if_pos ha]
  · rw [if_neg ha, if_neg ha]
    by_cases hn0 : n = 0 <;> by_cases hp0 : p = 0 <;> simp [hn0, hp0, Function.update_apply]

theorem itemRemove_listed {m : HeapMem} {root x : Nat} (as : List Nat) {bs : List Nat}
    (h : ItemList m root (as ++ x :: bs)) :
    ∃ m' root', itemRemove m root x = (m', root') ∧ ItemList m' root' (as ++ bs) ∧
      Rewired m m' as x bs 0 0 (m.prev x) (m.next x) := by
  obtain ⟨has, hbs, hprev, hnext⟩ := h.around
  have hsub : (as ++ bs).Sublist (as ++ x :: bs) := List.Sublist.append_left (List.sublist_cons_self x bs) as
  have hrew := rewire_rewired m h.toSpread 0 0 (m.prev x) (m.next x)
  have heq := itemRemove_eq root hprev hnext
    (fun h0 => has _ (List.mem_of_getLast? (getLastD_mem h0))) (fun h0 => hbs _ (List.mem_of_head? (headD_mem h0)))
  rw [hprev, hnext] at hrew ⊢
  refine ⟨_, _, heq, ⟨⟨h.apart.sublist hsub, fun a ha => h.pos a (hsub.subset ha)⟩, ?_, ?_⟩, hrew⟩
  · cases as with
    | nil =>
      have hroot : x = root := h.root_eq.symm
      rw [if_pos hroot]
      exact if_neg fun h0 => h0 rfl
    | cons a as =>
      have hroot : root = a := h.root_eq
      have hax := has a List.mem_cons_self
      simp only [itemSize] at hax
      rw [hroot, if_neg (by omega)]
      rfl
  · apply DList.threaded_remove h.links h.nodup hrew.back hrew.forth
    · intro a ha
      rw [← hnext] at hrew ⊢
      exact hrew.last a ha
    · intro b hb
      rw [← hprev] at hrew ⊢
      exact hrew.first b hb

/-! ### Putting an item in -/

/-- The search stops at the last item before `x`. -/
theorem seekItem_listed {m : HeapMem} {x : Nat} : ∀ {as bs : List Nat} {h p fuel : Nat},
    DList.Threaded m.links p (h :: (as ++ bs)) 0 → (∀ a ∈ as, 0 < a ∧ a < x) → (∀ b ∈ bs, x ≤ b) →
      as.length < fuel → seekItem m x fuel h = some (as.getLastD h)
  | [], bs, h, p, fuel + 1, hl, _, hbs, _ => by
    have hn : m.next h = bs.headD 0 := hl.2.1
    have hstop : ¬ (m.next h ≠ 0 ∧ m.next h < x) := by
      intro ⟨h0, hlt⟩
      rw [hn] at h0 hlt
      have := hbs _ (List.mem_of_head? (headD_mem h0))
      omega
    rw [seekItem, if_neg hstop]
    rfl
  | a :: as, bs, h, p, fuel + 1, hl, has, hbs, hfuel => by
    obtain ⟨-, hn, hrest⟩ := hl
    replace hn : m.next h = a := hn
    have ha := has a List.mem_cons_self
    rw [seekItem, hn, if_pos ⟨by omega, ha.2⟩, List.getLastD_cons]
    apply seekItem_listed hrest
    · intro b hb
      exact has b (List.mem_cons_of_mem a hb)
    · exact hbs
    · exact Nat.lt_of_succ_lt_succ hfuel

theorem eq_rewire (m : HeapMem) (p x n : Nat) {m' : HeapMem} (hx : m' x = p) (hx4 : m' (x + 4) = n)
    (hn : n ≠ 0 → m' n = x) (hp : p ≠ 0 → m' (p + 4) = x)
    (hrest : ∀ a, a ≠ x → a ≠ x + 4 → (n ≠ 0 → a ≠ n) → (p ≠ 0 → a ≠ p + 4) → m' a = m a) :
    m' = rewire m p x n p n x x := by
  funext a
  rw [rewire]
  split
  · rename_i h
    rw [h, hx]
  · split
    · rename_i h
      rw [h, hx4]
    · split
      · rename_i h
        rw [h.2, hn h.1]
      · split
        · rename_i h
          rw [h.2, hp h.1]
        · apply hrest <;> grind

/-- Into an empty list, or in front of the first item. -/
theorem itemInsert_front {m : HeapMem} {x n : Nat} (hclear : n ≠ 0 → m x = 0 ∧ m (x + 4) = 0)
    (hbefore : n ≠ 0 → x + 16 ≤ n) : itemInsert m n x = some (rewire m 0 x n 0 n x x, x) := by
  by_cases hn : n = 0
  · rw [itemInsert, if_pos hn, hn]
    congr 2
    apply eq_rewire m 0 x 0
    · simp [HeapMem.setPrev, HeapMem.setNext]
    · simp [HeapMem.setNext]
    · simp
    · simp
    · intro a ha ha4 _ _
      simp [HeapMem.setPrev, HeapMem.setNext, ha, ha4]
  · obtain ⟨hc, -⟩ := hclear hn
    have hbefore := hbefore hn
    rw [itemInsert, if_neg hn, if_pos (by omega)]
    congr 2
    apply eq_rewire m 0 x n
    · rw [HeapMem.setPrev, HeapMem.setNext, Function.update_of_ne (by omega), Function.update_of_ne (by omega)]
      exact hc
    · rw [HeapMem.setNext, Function.update_self]
    · intro _
      rw [HeapMem.setPrev, HeapMem.setNext, Function.update_of_ne (by omega), Function.update_self]
    · exact fun h0 => absurd rfl h0
    · intro a ha ha4 hb _
      rw [HeapMem.setPrev, HeapMem.setNext, Function.update_of_ne ha4, Function.update_of_ne (hb hn)]

/-- Behind the item `p` the search stops at, in front of `n` if there is one. -/
theorem itemInsert_behind {m : HeapMem} {root x p n : Nat} (hroot : root ≠ 0) (hrx : ¬ x < root)
    (hseek : seekItem m x searchBound root = some p) (hnext : m.next p = n) (hc4 : m (x + 4) = 0) (hp0 : 0 < p)
    (hp : p + 16 ≤ x) (hn : n ≠ 0 → x + 16 ≤ n) :
    itemInsert m root x = some (rewire m p x n p n x x, root) := by
  rw [itemInsert, if_neg hroot, if_neg hrx, hseek]
  show some (ite _ _ _) = _
  rw [hnext]
  by_cases hn0 : n = 0
  · -- at the end: its own `next` stays 0
    rw [if_pos hn0, hn0]
    congr 2
    apply eq_rewire m p x 0
    · rw [HeapMem.setNext, HeapMem.setPrev, Function.update_of_ne (by omega), Function.update_self]
    · rw [HeapMem.setNext, HeapMem.setPrev, Function.update_of_ne (by omega), Function.update_of_ne (by omega)]
      exact hc4
    · exact fun h0 => absurd rfl h0
    · intro _
      rw [HeapMem.setNext, Function.update_self]
    · intro c hcx hcx4 _ hcp
      rw [HeapMem.setNext, HeapMem.setPrev, Function.update_of_ne (hcp (by omega)), Function.update_of_ne hcx]
  · have hxn := hn hn0
    rw [if_neg hn0]
    dsimp only
    congr 2
    apply eq_rewire m p x n <;> simp only [HeapMem.setNext, HeapMem.setPrev]
    · rw [Function.update_of_ne (by omega), Function.update_of_ne (by omega), Function.update_self]
    · rw [Function.update_of_ne (by omega), Function.update_self]
    · rw [Function.update_self]
      exact fun _ => rfl
    · rw [Function.update_of_ne (by omega), Function.update_of_ne (by omega),
        Function.update_of_ne (by omega), Function.update_self]
      exact fun _ => rfl
    · intro c hcx hcx4 hcn hcp
      rw [Function.update_of_ne (hcn hn0), Function.update_of_ne hcx4, Function.update_of_ne hcx,
        Function.update_of_ne (hcp (by omega))]

theorem itemInsert_eq {m : HeapMem} {root x : Nat} {as bs : List Nat} (h : ItemList m root (as ++ bs))
    (hs : Spread (as ++ x :: bs)) (hclear : as ++ bs ≠ [] → m x = 0 ∧ m (x + 4) = 0)
    (hlen : as.length < searchBound) :
    itemInsert m root x =
      some (rewire m (as.getLastD 0) x (bs.headD 0) (as.getLastD 0) (bs.headD 0) x x, (as ++ x :: bs).headD 0) := by
  obtain ⟨-, hsx, hcross⟩ := List.pairwise_append.mp hs.apart
  obtain ⟨hxb, -⟩ := List.pairwise_cons.mp hsx
  have hax : ∀ a ∈ as, a + itemSize ≤ x := fun a ha => hcross a ha x List.mem_cons_self
  have hpos := hs.pos
  have hroot := h.root_eq
  simp only [itemSize] at hax hxb
  have hxn : bs.headD 0 ≠ 0 → x + 16 ≤ bs.headD 0 := fun hn => hxb _ (List.mem_of_head? (headD_mem hn))
  cases as with
  | nil =>
    replace hroot : root = bs.headD 0 := hroot
    rw [hroot]
    apply itemInsert_front _ hxn
    intro hn
    apply hclear
    intro hnil
    rw [List.nil_append] at hnil
    rw [hnil] at hn
    exact hn rfl
  | cons a as =>
    replace hroot : root = a := hroot
    obtain ⟨-, hc4⟩ := hclear (by simp)
    have hpa := hpos a List.mem_cons_self
    have haxa := hax a List.mem_cons_self
    -- the search stops at the last item in front of `x`
    have hseek : seekItem m x searchBound a = some (as.getLastD a) := by
      apply seekItem_listed h.links
      · intro c hc
        have := hax c (List.mem_cons_of_mem a hc)
        exact ⟨hpos c (List.mem_cons_of_mem a (List.mem_append_left _ hc)), by omega⟩
      · intro b hb
        have := hxb b hb
        omega
      · simp only [List.length_cons] at hlen
        omega
    have hlast : (a :: as).getLast? = some (as.getLastD a) := by
      rw [List.getLastD_eq_getLast?]
      exact List.getLast?_cons
    have hnext : m.next (as.getLastD a) = bs.headD 0 :=
      DList.threaded_last (DList.threaded_append.mp h.links).1 hlast
    have hpm := List.mem_of_getLast? hlast
    rw [hroot, List.getLastD_cons]
    exact itemInsert_behind (by omega) (by omega) hseek hnext hc4 (hpos _ (List.mem_append_left _ hpm)) (hax _ hpm) hxn

theorem itemInsert_listed {m : HeapMem} {root x : Nat} {as bs : List Nat} (h : ItemList m root (as ++ bs))
    (hs : Spread (as ++ x :: bs)) (hclear : as ++ bs ≠ [] → m x = 0 ∧ m (x + 4) = 0)
    (hlen : as.length < searchBound) :
    ∃ m' root', itemInsert m root x = some (m', root') ∧ ItemList m' root' (as ++ x :: bs) ∧
      Rewired m m' as x bs (as.getLastD 0) (bs.headD 0) x x := by
  have hrew := rewire_rewired m hs (as.getLastD 0) (bs.headD 0) x x
  refine ⟨_, _, itemInsert_eq h hs hclear hlen, ⟨hs, rfl, ?_⟩, hrew⟩
  apply DList.threaded_insert h.links hs.nodup hrew.back hrew.forth hrew.last hrew.first
  exact hrew.item

end Cubiboot
