import Cubiboot.Pmalloc

/-
  What the heap's routines do (`pmalloc.c`), one specification each, over the list
  lemmas of `Pmalloc`.

  What is proved:
    1. `pmallocMerge_merged` — merging a free block into the one before it and with
       the run of free blocks after it.
    2. `pmallocFree_spec` — freeing the first of the assigned blocks.
    3. `pmallocMalloc_spec` — a request cut from the bottom of the only free block.
    4. `pmallocMemalign_spec` — the same for an aligned request, with its padding.
    5. `alignUp_spec`, `findHeader_spec` — the walk back over the padding ends at
       the header whatever the block itself holds.
-/

set_option autoImplicit false

namespace Cubiboot

/-! ## Merging -/

theorem mergeBackward_stop {m : HeapMem} {fuel node : Nat}
    (h : m.prev node = 0 ∨ node ≠ m.prev node + itemSize + m.size (m.prev node)) :
    mergeBackward m (fuel + 1) node = some node := by
  rw [mergeBackward, if_neg]
  intro ⟨h0, he⟩
  exact h.elim h0 fun hne => hne he

theorem mergeBackward_step {m : HeapMem} {fuel node p : Nat} (hp : m.prev node = p) (h0 : p ≠ 0)
    (he : node = p + itemSize + m.size p) :
    mergeBackward m (fuel + 1) node = mergeBackward m fuel p := by
  rw [mergeBackward, hp, if_pos ⟨h0, he⟩]

/-- Free blocks that follow each other from `a` on, up to `e`. -/
def FreeRun (m : HeapMem) : Nat → List Nat → Nat → Prop
  | a, [], e => a = e
  | a, z :: zs, e => z = a ∧ FreeRun m (a + itemSize + m.size z) zs e

theorem freeRun_congr {m m' : HeapMem} {a e : Nat} {zs : List Nat} (h : FreeRun m a zs e)
    (heq : ∀ z ∈ zs, m'.size z = m.size z) : FreeRun m' a zs e := by
  induction zs generalizing a with
  | nil => exact h
  | cons z zs ih =>
    refine ⟨h.1, ?_⟩
    rw [heq z List.mem_cons_self]
    exact ih h.2 fun y hy => heq y (List.mem_cons_of_mem z hy)

theorem freeRun_le {m : HeapMem} {a e : Nat} {zs : List Nat} (h : FreeRun m a zs e) : a ≤ e := by
  induction zs generalizing a with
  | nil => exact Nat.le_of_eq h
  | cons z zs ih =>
    have := ih h.2
    omega

/-- What a merge does to the list and to memory: the blocks `zs` after `y` go. -/
structure Merged (pm pm' : Pmalloc) (hs : List Nat) (y size : Nat) (hs' : List Nat) : Prop where
  available : ItemList pm'.mem pm'.available hs'
  size_eq : pm'.mem.size y = size
  assigned : pm'.assigned = pm.assigned
  frame : ∀ a, OffLinks hs a → a ≠ y + 8 → pm'.mem a = pm.mem a

theorem Merged.trans {pm pm₁ pm₂ : Pmalloc} {hs hs₁ hs₂ : List Nat} {y n n' : Nat} (h : Merged pm pm₁ hs y n hs₁)
    (h' : Merged pm₁ pm₂ hs₁ y n' hs₂) (hsub : hs₁ ⊆ hs) : Merged pm pm₂ hs y n' hs₂ where
  available := h'.available
  size_eq := h'.size_eq
  assigned := h'.assigned.trans h.assigned
  frame := fun a ha hay => (h'.frame a (ha.mono hsub) hay).trans (h.frame a ha hay)

/-- A round of the loop: `y` takes in the block `z` that follows it. -/
theorem mergeForward_step (pm : Pmalloc) (as rest : List Nat) {y z : Nat}
    (h : ItemList pm.mem pm.available (as ++ y :: z :: rest)) (hz : z = y + itemSize + pm.mem.size y)
    (hlt : pm.mem.size y + itemSize + pm.mem.size z < wordMod) (fuel : Nat) :
    ∃ pm', mergeForward y (fuel + 1) pm = mergeForward y fuel pm' ∧
      Merged pm pm' (as ++ y :: z :: rest) y (pm.mem.size y + itemSize + pm.mem.size z) (as ++ y :: rest) := by
  have hnext : pm.mem.next y = z := h.around.2.2.2
  have hsplit : as ++ y :: z :: rest = (as ++ [y]) ++ z :: rest := by simp
  have hjoin : (as ++ [y]) ++ rest = as ++ y :: rest := by simp
  have hlist := h
  rw [hsplit] at hlist
  obtain ⟨mem, available, hrem, hlist', hrew⟩ := itemRemove_listed (as ++ [y]) hlist
  rw [hjoin] at hlist'
  have hframe : ∀ a, OffLinks (as ++ y :: z :: rest) a → mem a = pm.mem a := by
    intro a ha
    apply hrew.frame a
    rw [← hsplit]
    exact ha
  have hym : y ∈ as ++ y :: z :: rest := List.mem_append_right as List.mem_cons_self
  have hym' : y ∈ as ++ y :: rest := List.mem_append_right as List.mem_cons_self
  have hsize : mem.size y = pm.mem.size y := hframe _ (h.toSpread.offLinks hym (by omega))
  have hnew : (mem.size y + (pm.mem.size z + itemSize)) % wordMod = pm.mem.size y + itemSize + pm.mem.size z := by
    rw [hsize, Nat.mod_eq_of_lt (by omega)]
    omega
  refine ⟨{ pm with
    mem := mem.setSize y (pm.mem.size y + itemSize + pm.mem.size z)
    available := available
    freemem := (pm.freemem + itemSize) % wordMod
    totalnodes := (pm.totalnodes + wordMod - 1) % wordMod }, ?_, ?_, Function.update_self .., rfl, fun a ha hay => ?_⟩
  · rw [mergeForward, if_pos (hnext.trans hz), hnext, hrem]
    dsimp only
    rw [hnew]
  · exact hlist'.update (hlist'.toSpread.offLinks hym' ⟨by decide, by decide⟩) _
  · calc mem.setSize y (pm.mem.size y + itemSize + pm.mem.size z) a = mem a := Function.update_of_ne hay _ _
      _ = pm.mem a := hframe a ha

theorem mergeForward_merged (pm : Pmalloc) (as zs : List Nat) {bs : List Nat} {y e fuel : Nat}
    (h : ItemList pm.mem pm.available (as ++ y :: (zs ++ bs)))
    (hrun : FreeRun pm.mem (y + itemSize + pm.mem.size y) zs e) (hend : bs.headD 0 ≠ e)
    (he : e < wordMod) (hfuel : zs.length < fuel) :
    ∃ pm', mergeForward y fuel pm = some pm' ∧
      Merged pm pm' (as ++ y :: (zs ++ bs)) y (e - y - itemSize) (as ++ y :: bs) := by
  induction zs generalizing pm fuel with
  | nil =>
    obtain ⟨fuel, rfl⟩ := Nat.exists_eq_add_of_lt hfuel
    have hnext : pm.mem.next y = bs.headD 0 := h.around.2.2.2
    replace hrun : y + itemSize + pm.mem.size y = e := hrun
    refine ⟨pm, ?_, h, by omega, rfl, fun _ _ _ => rfl⟩
    rw [mergeForward, if_neg]
    rw [hnext, hrun]
    exact hend
  | cons z zs ih =>
    obtain ⟨fuel, rfl⟩ := Nat.exists_eq_succ_of_ne_zero (Nat.ne_of_gt (Nat.zero_lt_of_lt hfuel))
    obtain ⟨hz, hrest⟩ := hrun
    have hle := freeRun_le hrest
    obtain ⟨pm₁, hround, hmerged₁⟩ := mergeForward_step pm as (zs ++ bs) h hz
      (by simp only [itemSize] at hle ⊢; omega) fuel
    -- the blocks after `z` are as they were
    have hsize : ∀ w ∈ zs, pm₁.mem.size w = pm.mem.size w := by
      intro w hw
      have hwm : w ∈ z :: (zs ++ bs) := List.mem_cons_of_mem z (List.mem_append_left bs hw)
      have hwy : y + itemSize ≤ w := h.around.2.1 w hwm
      apply hmerged₁.frame
      · exact h.toSpread.offLinks (List.mem_append_right as (List.mem_cons_of_mem y hwm)) (by omega)
      · simp only [itemSize] at hwy
        omega
    have hrun₁ : FreeRun pm₁.mem (y + itemSize + pm₁.mem.size y) zs e := by
      have hstart : y + itemSize + (pm.mem.size y + itemSize + pm.mem.size z) =
          y + itemSize + pm.mem.size y + itemSize + pm.mem.size z := by omega
      rw [hmerged₁.size_eq, hstart]
      exact freeRun_congr hrest hsize
    obtain ⟨pm', heq, hmerged⟩ := ih pm₁ hmerged₁.available hrun₁ (Nat.lt_of_succ_lt_succ hfuel)
    have hsub : as ++ y :: (zs ++ bs) ⊆ as ++ y :: (z :: zs ++ bs) :=
      (List.Sublist.append_left ((List.sublist_cons_self z _).cons_cons y) as).subset
    exact ⟨pm', hround.trans heq, hmerged₁.trans hmerged hsub⟩

/-- Merging around `x`: into the block before it if `x` follows that, and with the
run after it. -/
theorem pmallocMerge_merged (pm : Pmalloc) {as : List Nat} (zs bs : List Nat) {x e : Nat}
    (h : ItemList pm.mem pm.available (as ++ x :: (zs ++ bs)))
    (hfront : as = [] ∨ ∃ y, as = [y] ∧ x = y + itemSize + pm.mem.size y)
    (hrun : FreeRun pm.mem (x + itemSize + pm.mem.size x) zs e) (hend : bs.headD 0 ≠ e)
    (he : e < wordMod) (hlen : zs.length + 1 < searchBound) :
    ∃ pm', pmallocMerge pm x = some pm' ∧
      Merged pm pm' (as ++ x :: (zs ++ bs)) (as.headD x) (e - as.headD x - itemSize) (as.headD x :: bs) := by
  obtain ⟨fuel, hfuel⟩ : ∃ fuel, searchBound = fuel + 2 := ⟨searchBound - 2, by omega⟩
  have hprev := h.around.2.2.1
  rcases hfront with rfl | ⟨y, rfl, hy⟩
  · have hback : mergeBackward pm.mem searchBound x = some x := by
      rw [hfuel]
      exact mergeBackward_stop (.inl hprev)
    rw [pmallocMerge, hback, Option.bind_some]
    exact mergeForward_merged pm [] zs h hrun hend he (by omega)
  · have hback : mergeBackward pm.mem searchBound x = some y := by
      have hy0 : y ≠ 0 := Nat.ne_of_gt (h.pos y List.mem_cons_self)
      have hfirst : pm.mem.prev y = 0 := h.links.1
      rw [hfuel, mergeBackward_step (p := y) hprev hy0 hy]
      exact mergeBackward_stop (.inl hfirst)
    rw [pmallocMerge, hback, Option.bind_some]
    have hlength : (x :: zs).length < searchBound := hlen
    exact mergeForward_merged pm [] (x :: zs) h ⟨hy, hy ▸ hrun⟩ hend he hlength

/-! ## Freeing -/

/-- The items of one list are clear of those of the other. -/
def Clear (hs ks : List Nat) : Prop := ∀ h ∈ hs, ∀ k ∈ ks, h + itemSize ≤ k ∨ k + itemSize ≤ h

theorem Clear.symm {hs ks : List Nat} (h : Clear hs ks) : Clear ks hs := fun k hk x hx => (h x hx k hk).symm

theorem Clear.offLinks {hs ks : List Nat} (h : Clear hs ks) {k d : Nat} (hk : k ∈ ks) (hd : d < 16) :
    OffLinks hs (k + d) := by
  intro a ha
  have := h a ha k hk
  simp only [itemSize] at this
  omega

theorem ItemList.keep {m m' : HeapMem} {root : Nat} {hs ks : List Nat} (h : ItemList m root ks)
    (hclear : Clear hs ks) (hframe : ∀ a, OffLinks hs a → m' a = m a) : ItemList m' root ks :=
  h.congr fun _ hk => ⟨hframe _ (hclear.offLinks (d := 0) hk (by omega)), hframe _ (hclear.offLinks hk (by omega))⟩

/-- The item `x` of one list has gone to another. -/
structure Moved (m m' : HeapMem) (x root root' : Nat) (hs ks ks' : List Nat) : Prop where
  left : ItemList m' root hs
  joined : ItemList m' root' (ks ++ x :: ks')
  frame : ∀ a, OffLinks (x :: hs) a → OffLinks (ks ++ x :: ks') a → m' a = m a

theorem item_moved {m : HeapMem} {x root root' : Nat} {hs ks ks' : List Nat} (h : ItemList m root (x :: hs))
    (h' : ItemList m root' (ks ++ ks')) (hspread : Spread (ks ++ x :: ks')) (hclear : Clear (x :: hs) (ks ++ ks'))
    (hclear' : Clear (ks ++ x :: ks') hs) (hlen : ks.length < searchBound) :
    ∃ m₁ m₂ r r', itemRemove m root x = (m₁, r) ∧ itemInsert m₁ root' x = some (m₂, r') ∧
      Moved m m₂ x r r' hs ks ks' := by
  obtain ⟨m₁, r, hrem, hleft, hrew₁⟩ := itemRemove_listed [] h
  have hkept : ItemList m₁ root' (ks ++ ks') := h'.keep hclear hrew₁.frame
  obtain ⟨m₂, r', hins, hjoined, hrew₂⟩ := itemInsert_listed hkept hspread (fun _ => hrew₁.item) hlen
  refine ⟨m₁, m₂, r, r', hrem, hins, hleft.keep hclear' hrew₂.frame, hjoined, fun a h1 h2 => ?_⟩
  calc m₂ a = m₁ a := hrew₂.frame a h2
    _ = m a := hrew₁.frame a h1

/-- The first of the assigned blocks is freed next to the free blocks around it:
at most one before it, which it follows, and the run `zs` after it. -/
theorem pmallocFree_spec {pm : Pmalloc} {x e : Nat} {hs as zs bs : List Nat}
    (hassigned : ItemList pm.mem pm.assigned (x :: hs)) (havail : ItemList pm.mem pm.available (as ++ (zs ++ bs)))
    (hspread : Spread (as ++ x :: (zs ++ bs))) (hclear : Clear hs (as ++ x :: (zs ++ bs)))
    (hfront : as = [] ∨ ∃ y, as = [y] ∧ x = y + itemSize + pm.mem.size y)
    (hrun : FreeRun pm.mem (x + itemSize + pm.mem.size x) zs e) (hend : bs.headD 0 ≠ e) (he : e < wordMod)
    (hlen : zs.length + 1 < searchBound) :
    ∃ pm', pmallocFree pm (x + itemSize) = some pm' ∧
      ItemList pm'.mem pm'.available (as.headD x :: bs) ∧
      pm'.mem.size (as.headD x) = e - as.headD x - itemSize ∧
      ItemList pm'.mem pm'.assigned hs ∧
      ∀ a, OffLinks (x :: hs) a → OffLinks (as ++ x :: (zs ++ bs)) a → a ≠ as.headD x + 8 →
        pm'.mem a = pm.mem a := by
  have hxm : x ∈ as ++ x :: (zs ++ bs) := List.mem_append_right as List.mem_cons_self
  have hothers : as ++ (zs ++ bs) ⊆ as ++ x :: (zs ++ bs) :=
    (List.Sublist.append_left (List.sublist_cons_self x _) as).subset
  have hclear₁ : Clear (x :: hs) (as ++ (zs ++ bs)) := by
    intro h hh k hk
    rcases List.mem_cons.mp hh with rfl | hh
    · have hne : h ≠ k := by
        rintro rfl
        exact (List.nodup_cons.mp (List.nodup_middle.mp hspread.nodup)).1 hk
      exact (hspread.far h hxm k (hothers hk)).resolve_left hne
    · exact hclear h hh k (hothers hk)
  have hlen' : as.length < searchBound := by
    rcases hfront with rfl | ⟨y, rfl, -⟩
    · exact Nat.zero_lt_of_lt hlen
    · show 1 < searchBound
      omega
  -- `x` leaves the assigned list and joins the free list
  obtain ⟨m₁, m₂, assigned, available, hrem, hins, hassigned₂, havail₂, hframe⟩ :=
    item_moved hassigned havail hspread hclear₁ hclear.symm hlen'
  have hsize : ∀ k ∈ as ++ x :: (zs ++ bs), m₂.size k = pm.mem.size k := by
    intro k hk
    apply hframe _ _ (hspread.offLinks hk (by omega))
    by_cases hkx : k = x
    · rw [hkx]
      exact hassigned.toSpread.offLinks List.mem_cons_self (by omega)
    · rcases List.mem_append.mp hk with hm | hm
      · exact hclear₁.offLinks (List.mem_append_left _ hm) (by omega)
      · exact hclear₁.offLinks (List.mem_append_right as (List.mem_of_ne_of_mem hkx hm)) (by omega)
  have hxsize := hsize x hxm
  have hrun₂ : FreeRun m₂ (x + itemSize + m₂.size x) zs e := by
    rw [hxsize]
    apply freeRun_congr hrun
    intro z hz
    exact hsize z (List.mem_append_right as (List.mem_cons_of_mem x (List.mem_append_left bs hz)))
  have hfront₂ : as = [] ∨ ∃ y, as = [y] ∧ x = y + itemSize + m₂.size y := by
    rcases hfront with rfl | ⟨y, rfl, hy⟩
    · exact .inl rfl
    · refine .inr ⟨y, rfl, ?_⟩
      rw [hsize y List.mem_cons_self]
      exact hy
  have hfm : as.headD x ∈ as ++ x :: (zs ++ bs) := by
    rcases hfront with rfl | ⟨y, rfl, -⟩ <;> exact List.mem_cons_self
  obtain ⟨pm', hmerge, hmerged⟩ := pmallocMerge_merged
    { pm with
      mem := m₂, available := available, assigned := assigned
      freemem := (pm.freemem + m₁.size x) % wordMod }
    zs bs havail₂ hfront₂ hrun₂ hend he hlen
  refine ⟨pm', ?_, hmerged.available, hmerged.size_eq, ?_, fun a h1 h2 h3 => ?_⟩
  · rw [pmallocFree, if_neg (by simp only [itemSize]; omega), Nat.add_sub_cancel]
    dsimp only
    rw [hrem]
    dsimp only
    rw [hins]
    exact hmerge
  · rw [hmerged.assigned]
    apply hassigned₂.congr
    intro a ha
    have hne : ∀ d, d < 16 → a + d ≠ as.headD x + 8 := by
      intro d hd he
      have := hclear a ha _ hfm
      simp only [itemSize] at this
      omega
    exact ⟨hmerged.frame _ (hclear.symm.offLinks (d := 0) ha (by omega)) (hne 0 (by omega)),
      hmerged.frame _ (hclear.symm.offLinks ha (by omega)) (hne 4 (by omega))⟩
  · exact (hmerged.frame a h2 h3).trans (hframe a h1 h2)

/-! ## Allocating -/

/-- The last of the assigned blocks keeps `size` bytes; the rest is the only free
block. Its `next`, cleared to end the list, was clear already. -/
theorem splitBlock_spec (pm : Pmalloc) {x size sz : Nat} {hs : List Nat} (havail : pm.available = 0)
    (hassigned : ItemList pm.mem pm.assigned (hs ++ [x])) (hsz : pm.mem.size x = sz)
    (hfit : size + itemSize ≤ sz) (hend : x + itemSize + sz < wordMod) (hbound : 1 < searchBound) :
    ∃ pm', splitBlock pm x size = some pm' ∧ ItemList pm'.mem pm'.available [x + itemSize + size] ∧
      ItemList pm'.mem pm'.assigned (hs ++ [x]) ∧ pm'.mem.size x = size ∧
      pm'.mem.size (x + itemSize + size) = sz - itemSize - size ∧
      ∀ a, a ≠ x + 8 → (a < x + itemSize + size ∨ x + itemSize + size + itemSize ≤ a) →
        pm'.mem a = pm.mem a := by
  have hlast : pm.mem.next x = 0 := hassigned.around.2.2.2
  have hx0 : 0 < x := hassigned.pos x (List.mem_append_right hs List.mem_cons_self)
  have hrest : (pm.mem.size x + 2 * wordMod - itemSize - size) % wordMod = sz - itemSize - size := by
    rw [hsz, show sz + 2 * wordMod - itemSize - size = (sz - itemSize - size) + 2 * wordMod by omega,
      Nat.add_mul_mod_self_right, Nat.mod_eq_of_lt (by omega)]
  simp only [splitBlock, hrest]
  generalize hn : x + itemSize + size = n
  simp only [itemSize] at hn hfit hend ⊢
  -- the four words written before the remainder is listed
  generalize hm : HeapMem.setSize (HeapMem.setNext (HeapMem.setNext (pm.mem.setSize n (sz - 16 - size)) n
    ((pm.mem.setSize n (sz - 16 - size)).next x)) x 0) x size = m
  have hm_x : m.size x = size := by
    rw [← hm]
    exact Function.update_self ..
  have hm_n : m.size n = sz - 16 - size := by
    rw [← hm, HeapMem.size]
    simp only [HeapMem.setSize, HeapMem.setNext]
    rw [Function.update_of_ne (by omega), Function.update_of_ne (by omega), Function.update_of_ne (by omega),
      Function.update_self]
  have hm_frame : ∀ a, a ≠ x + 8 → a ≠ n + 4 → a ≠ n + 8 → m a = pm.mem a := by
    intro a h1 h2 h3
    rw [← hm]
    simp only [HeapMem.setSize, HeapMem.setNext]
    by_cases hax : a = x + 4
    · rw [hax, Function.update_of_ne (by omega), Function.update_self]
      exact hlast.symm
    · rw [Function.update_of_ne h1, Function.update_of_ne hax, Function.update_of_ne h2, Function.update_of_ne h3]
  have hempty : ItemList m pm.available ([] ++ []) :=
    ⟨⟨List.Pairwise.nil, fun h hh => by cases hh⟩, havail, trivial⟩
  have hspread : Spread [n] := ⟨List.pairwise_singleton .., fun h hh => by
    obtain rfl := List.mem_singleton.mp hh
    omega⟩
  obtain ⟨m', available, hins, hlist, hrew⟩ :=
    itemInsert_listed (x := n) hempty hspread (fun h => absurd rfl h) (by simpa using Nat.zero_lt_of_lt hbound)
  have hframe : ∀ a, a < n ∨ n + 4 < a → m' a = m a := by
    intro a ha
    apply hrew.frame
    intro h hh
    obtain rfl := List.mem_singleton.mp hh
    omega
  have hm'_n : m'.size n = sz - 16 - size := (hframe (n + 8) (by omega)).trans hm_n
  obtain ⟨pm', hmerge, hmerged⟩ := pmallocMerge_merged
    { pm with
      mem := m', available := available
      freemem := (pm.freemem + wordMod - 16) % wordMod, totalnodes := (pm.totalnodes + 1) % wordMod }
    [] [] (e := x + 16 + sz) hlist (.inl rfl)
    (by show n + itemSize + m'.size n = x + 16 + sz; rw [hm'_n]; simp only [itemSize]; omega)
    (by show 0 ≠ x + 16 + sz; omega) hend hbound
  have hoff : ∀ a, a < n ∨ n + 16 ≤ a → pm'.mem a = m a := by
    intro a ha
    refine (hmerged.frame a ?_ (by show a ≠ n + 8; omega)).trans (hframe a (by omega))
    intro h hh
    obtain rfl := List.mem_singleton.mp hh
    omega
  have hall : ∀ a, a ≠ x + 8 → a < n ∨ n + 16 ≤ a → pm'.mem a = pm.mem a := fun a hax ha =>
    (hoff a ha).trans (hm_frame a hax (by omega) (by omega))
  have hsize : pm'.mem.size n = x + 16 + sz - n - 16 := hmerged.size_eq
  refine ⟨pm', ?_, hmerged.available, ?_, ?_, by omega, hall⟩
  · rw [hins]
    exact hmerge
  · rw [hmerged.assigned]
    apply hassigned.congr
    intro h hh
    have hoffx := hassigned.toSpread.offLinks (x := x) (d := 8) (List.mem_append_right hs List.mem_cons_self)
      ⟨by decide, by decide⟩ h hh
    have hhx : h ≤ x := by
      rcases List.mem_append.mp hh with hm | hm
      · have := hassigned.around.1 h hm
        omega
      · exact Nat.le_of_eq (List.mem_singleton.mp hm)
    exact ⟨hall h (by omega) (by omega), hall (h + 4) (by omega) (by omega)⟩
  · exact (hoff (x + 8) (by omega)).trans hm_x

theorem pmallocMalloc_spec {pm : Pmalloc} {x size sz : Nat} {hs : List Nat}
    (havail : ItemList pm.mem pm.available [x]) (hassigned : ItemList pm.mem pm.assigned hs)
    (hbelow : ∀ h ∈ hs, h + itemSize ≤ x) (hsz : pm.mem.size x = sz) (h4 : size % 4 = 0)
    (hfit : size + itemSize ≤ sz) (hend : x + itemSize + sz < wordMod) (hlen : hs.length < searchBound) :
    ∃ pm', pmallocMalloc pm size = some (pm', x + itemSize) ∧
      ItemList pm'.mem pm'.available [x + itemSize + size] ∧ ItemList pm'.mem pm'.assigned (hs ++ [x]) ∧
      pm'.mem.size x = size ∧ pm'.mem.magic x = feedFace ∧
      pm'.mem.size (x + itemSize + size) = sz - itemSize - size ∧
      ∀ a, OffLinks hs a → (a < x ∨ x + itemSize ≤ a) →
        (a < x + itemSize + size ∨ x + itemSize + size + itemSize ≤ a) → pm'.mem a = pm.mem a := by
  have hx0 : 0 < x := havail.pos x List.mem_cons_self
  have hroot : pm.available = x := havail.root_eq
  have hround : (size + 3) % wordMod / 4 * 4 = size := by
    rw [Nat.mod_eq_of_lt (by simp only [itemSize] at hfit hend; omega)]
    omega
  have hfound : firstFit pm.mem size searchBound x = some x := by
    obtain ⟨fuel, hfuel⟩ := Nat.exists_eq_add_of_lt (Nat.zero_lt_of_lt hlen)
    rw [hfuel, firstFit, if_neg]
    rintro ⟨-, hlt⟩
    omega
  have hclear : Clear [x] hs := by
    intro h hh k hk
    obtain rfl := List.mem_singleton.mp hh
    exact .inr (hbelow k hk)
  -- the magic word is in no link
  have havail₀ : ItemList (pm.mem.setMagic x feedFace) pm.available [x] :=
    havail.update (havail.toSpread.offLinks (d := 12) List.mem_cons_self ⟨by decide, by decide⟩) _
  have hassigned₀ : ItemList (pm.mem.setMagic x feedFace) pm.assigned hs :=
    hassigned.update (hclear.symm.offLinks (d := 12) List.mem_cons_self (by decide)) _
  have hspread : Spread (hs ++ x :: []) := by
    constructor
    · rw [List.pairwise_append]
      refine ⟨hassigned.apart, List.pairwise_singleton .., fun h hh k hk => ?_⟩
      obtain rfl := List.mem_singleton.mp hk
      exact hbelow h hh
    · intro h hh
      rcases List.mem_append.mp hh with hm | hm
      · exact hassigned.pos h hm
      · exact List.mem_singleton.mp hm ▸ hx0
  -- `x` leaves the free list and goes to the end of the assigned list
  obtain ⟨m₁, m₂, available, assigned, hrem, hins, havail₁, hassigned₂, hmoved⟩ :=
    item_moved havail₀ ((List.append_nil hs).symm ▸ hassigned₀) hspread ((List.append_nil hs).symm ▸ hclear)
      (fun _ _ _ hk => absurd hk List.not_mem_nil) hlen
  have hframe : ∀ a, OffLinks hs a → (a < x ∨ x + 4 < a) → a ≠ x + 12 → m₂ a = pm.mem a := by
    intro a hoff ha hmagic
    have hoffx : OffLinks [x] a := by
      intro h hh
      obtain rfl := List.mem_singleton.mp hh
      omega
    have hoffs : OffLinks (hs ++ x :: []) a := by
      intro h hh
      rcases List.mem_append.mp hh with hm | hm
      · exact hoff h hm
      · exact hoffx h hm
    calc m₂ a = pm.mem.setMagic x feedFace a := hmoved a hoffx hoffs
      _ = pm.mem a := Function.update_of_ne hmagic _ _
  have hsize₂ : m₂.size x = sz := by
    rw [← hsz]
    exact hframe _ (hclear.symm.offLinks List.mem_cons_self (by omega)) (by omega) (by omega)
  have hmagic₂ : m₂.magic x = feedFace := by
    have hoff : OffLinks (hs ++ x :: []) (x + 12) :=
      hspread.offLinks (List.mem_append_right hs List.mem_cons_self) ⟨by decide, by decide⟩
    calc m₂ (x + 12) = pm.mem.setMagic x feedFace (x + 12) :=
          hmoved _ (hoff.mono (List.subset_append_right hs _)) hoff
      _ = feedFace := Function.update_self ..
  -- the rest of the block is split off
  obtain ⟨pm', hsplit, hav, has, hs_x, hs_n, hfr⟩ := splitBlock_spec
    { pm with mem := m₂, available := available, assigned := assigned }
    havail₁.root_eq hassigned₂ hsize₂ hfit hend (by rw [searchBound_eq]; decide)
  refine ⟨{ pm' with freemem := (pm'.freemem + wordMod - pm'.mem.size x) % wordMod }, ?_, hav, has, hs_x, ?_,
    hs_n, fun a hoff ha hrest => ?_⟩
  · have hne : m₂.size x ≠ size := by
      rw [hsize₂]
      simp only [itemSize] at hfit
      omega
    rw [hroot] at hrem
    simp only [pmallocMalloc, hround, hroot, hfound, Option.bind_some]
    rw [if_neg (by omega), hrem]
    dsimp only
    rw [hins, Option.bind_some]
    dsimp only
    rw [if_pos hne, hsplit]
    rfl
  · refine (hfr (x + 12) (by omega) (.inl ?_)).trans hmagic₂
    simp only [itemSize]
    omega
  · simp only [itemSize] at ha
    exact (hfr a (by omega) hrest).trans (hframe a hoff (by omega) (by omega))

/-! ## Alignment -/

theorem alignUp_spec (p : Nat) (h4 : p % 4 = 0) :
    alignUp 32 p % 32 = 0 ∧ p ≤ alignUp 32 p ∧ alignUp 32 p < p + 32 ∧ (alignUp 32 p - p) % 4 = 0 := by
  simp only [alignUp]
  omega

theorem fillPadding_eq (p n : Nat) (m : HeapMem) (a : Nat) :
    fillPadding p n m a = if p ≤ a ∧ a < p + 4 * n ∧ (a - p) % 4 = 0 then deadBeef else m a := by
  induction n with
  | zero =>
    rw [if_neg (by omega)]
    rfl
  | succ n ih =>
    rw [fillPadding, Function.update_apply, ih]
    by_cases ha : a = p + 4 * n
    · rw [if_pos ha, if_pos (by omega)]
    · rw [if_neg ha]
      exact if_congr (by omega) rfl rfl

/-- An aligned request: the block is 32 bytes larger, and what lies before the address
given out is padded. -/
theorem pmallocMemalign_spec {pm : Pmalloc} {x size sz : Nat} {hs : List Nat}
    (havail : ItemList pm.mem pm.available [x]) (hassigned : ItemList pm.mem pm.assigned hs)
    (hbelow : ∀ h ∈ hs, h + itemSize ≤ x) (hsz : pm.mem.size x = sz) (hx4 : x % 4 = 0) (h4 : size % 4 = 0)
    (hfit : size + 32 + itemSize ≤ sz) (hend : x + itemSize + sz < wordMod) (hlen : hs.length < searchBound) :
    ∃ pm₀ pm', pmallocMalloc pm ((size + 32) % wordMod) = some (pm₀, x + itemSize) ∧
      pmallocMemalign pm size 32 = some (pm', alignUp 32 (x + itemSize)) ∧
      ItemList pm'.mem pm'.available [x + itemSize + (size + 32)] ∧ ItemList pm'.mem pm'.assigned (hs ++ [x]) ∧
      pm'.mem.size x = size + 32 ∧ pm'.mem.magic x = feedFace ∧
      pm'.mem.size (x + itemSize + (size + 32)) = sz - itemSize - (size + 32) ∧
      (∀ i, x + itemSize + 4 * i < alignUp 32 (x + itemSize) → pm'.mem (x + itemSize + 4 * i) = deadBeef) ∧
      ∀ a, OffLinks hs a → a < x → pm'.mem a = pm.mem a := by
  have hword : (size + 32) % wordMod = size + 32 := Nat.mod_eq_of_lt (by omega)
  obtain ⟨pm₀, hmalloc, hav, has, hsize, hmagic, hnew, hframe⟩ :=
    pmallocMalloc_spec havail hassigned hbelow hsz (by omega) hfit hend hlen
  obtain ⟨-, hle, hlt, hmod⟩ := alignUp_spec (x + itemSize) (by simp only [itemSize]; omega)
  have hmem : x + itemSize ≠ 0 := by
    simp only [itemSize]
    omega
  have halign : pmallocMemalign pm size 32 = some ({ pm₀ with
      mem := fillPadding (x + itemSize) ((alignUp 32 (x + itemSize) - (x + itemSize)) / 4) pm₀.mem },
      alignUp 32 (x + itemSize)) := by
    rw [pmallocMemalign, hword, hmalloc, Option.map_some]
    exact congrArg some (if_neg hmem)
  generalize hptr : alignUp 32 (x + itemSize) = ptr at hle hlt hmod halign ⊢
  generalize hm : fillPadding (x + itemSize) ((ptr - (x + itemSize)) / 4) pm₀.mem = m at halign
  -- the padding is written over the start of the block
  have hpad : ∀ w, w < x + itemSize ∨ ptr ≤ w → m w = pm₀.mem w := by
    intro w hw
    rw [← hm, fillPadding_eq, if_neg]
    omega
  have hbeef : ∀ i, x + itemSize + 4 * i < ptr → m (x + itemSize + 4 * i) = deadBeef := by
    intro i hi
    rw [← hm, fillPadding_eq, if_pos]
    omega
  rw [hword]
  simp only [itemSize] at hle hlt hpad hbeef hfit hsize hmagic hnew hframe hav has ⊢
  refine ⟨pm₀, { pm₀ with mem := m }, hmalloc, halign, ?_, ?_, ?_, ?_, ?_, hbeef, ?_⟩
  · apply hav.congr
    intro k hk
    obtain rfl := List.mem_singleton.mp hk
    exact ⟨hpad _ (by omega), hpad _ (by omega)⟩
  · apply has.congr
    intro k hk
    have hk' : k + 16 ≤ x ∨ k = x := by
      rcases List.mem_append.mp hk with hkhs | hkx
      · exact .inl (hbelow k hkhs)
      · exact .inr (List.mem_singleton.mp hkx)
    exact ⟨hpad k (by omega), hpad (k + 4) (by omega)⟩
  · exact (hpad (x + 8) (by omega)).trans hsize
  · exact (hpad (x + 12) (by omega)).trans hmagic
  · exact (hpad _ (by omega)).trans hnew
  · intro a hoff ha
    exact (hpad a (by omega)).trans (hframe a hoff (by omega) (by omega))

/-- Past padding, the magic word of the header is the first one found. -/
theorem findHeader_spec {m : HeapMem} {p n fuel : Nat} (hp : 4 ≤ p) (hmagic : m (p - 4) = feedFace)
    (hpad : ∀ i, i < n → m (p + 4 * i) = deadBeef) (hfuel : n < fuel) :
    findHeader m fuel (p + 4 * n) = some p := by
  induction n generalizing fuel with
  | zero =>
    obtain ⟨fuel, rfl⟩ := Nat.exists_eq_succ_of_ne_zero (Nat.ne_of_gt hfuel)
    rw [findHeader, Nat.mul_zero, Nat.add_zero, if_neg]
    exact fun hne => hne hmagic
  | succ n ih =>
    obtain ⟨fuel, rfl⟩ := Nat.exists_eq_succ_of_ne_zero (Nat.ne_of_gt (Nat.zero_lt_of_lt hfuel))
    have hprev : p + 4 * (n + 1) - 4 = p + 4 * n := by omega
    have hword : m (p + 4 * n) ≠ feedFace := by
      rw [hpad n (by omega)]
      decide
    rw [findHeader, hprev, if_pos hword]
    exact ih (fun i hi => hpad i (by omega)) (by omega)

end Cubiboot
