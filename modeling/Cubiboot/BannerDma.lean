import Cubiboot.Lib.Run
import Cubiboot.BannerCache

/-
  The banner cache with its transfers under way (`bnr_cache_store`/`_load`,
  `tweaks.c`), and the banner load that uses it (`gm_load_banner`, `games.c`).

  A transfer is posted, and copies when it completes: while the call that posted
  it still polls its busy flag, or after that call has given up on it, at any
  later step, or never. Buffers are numbered; `banner_buffer` is number 0.

  What is proved:
    1. `dmaStep_inv` — at most one transfer is under way: the one the current
       call waits for, or one that was given up, after which nothing is posted.
    2. `cache_sound` — in every run, whatever completes when: a get that says true
       has the banner last stored under its key in the buffer, no two valid
       entries have one key, and areas do not overlap.
    3. `dma_ok_iff` — in a run every banner is copied to its entry as it was
       fetched exactly when no transfer that was given up lands, with other bytes,
       between a load's fetch and its copies.
    4. `put_in_time` — a put whose transfer completes in time is `bnrCachePut`.

  Correspondence (C ↔ Lean):
    `ARQRequest` posted by `bnr_cache_store`, `bnr_cache_load` ↔ `Transfer`
    `bnr_store_bsy`, `bnr_load_bsy`            ↔ `storeBsy`, `loadBsy`
    the wait loops and their timeout           ↔ `dmaStep` at `poll`
    the ARQ callbacks                          ↔ `dmaStep` at `complete`
    `gm_load_banner`                           ↔ `dmaStep` at `load`, `file` and `copy`
-/

set_option autoImplicit false

namespace Cubiboot

def bannerBuffer : Nat := 0

structure Transfer where
  toAram : Bool
  buf : Nat
  aramOffset : Nat
  deriving DecidableEq, Repr

/-- Who called the cache: anyone, or `gm_load_banner`, with a pool buffer to be
had or not. -/
inductive Caller where
  | direct
  | loadBanner (room : Bool)
  deriving DecidableEq, Repr

/-- Where the thread is. `given` is the banner a put was called with, `banner` the
one a load has fetched: neither is seen by the code. -/
inductive Phase where
  | idle
  | getting (caller : Caller) (key : UInt32) (buf : Nat)
  | reading (useCache : Bool) (key : UInt32) (room : Bool)
  | putting (caller : Caller) (key : UInt32) (buf : Nat) (given : BnrImage)
  | copying (banner : BnrImage)
  | describing (banner : BnrImage) (pixels : List UInt8)

/-- `latest` is the banner last stored under each key, `hits` what each get that
said true left in its buffer, with the `latest` of its key, and `copied` what each
load copied, with what it had fetched. None of them is seen by the code. -/
structure DmaSys where
  cache : BnrCache
  aram : Aram
  mram : Nat → BnrImage
  storeBsy : Bool
  loadBsy : Bool
  inflight : List Transfer
  phase : Phase
  latest : UInt32 → Option BnrImage
  hits : List (Option BnrImage × BnrImage)
  copied : List (BnrImage × List UInt8 × BnrDesc)

def DmaSys.start (aram : Aram) (mram : Nat → BnrImage) : DmaSys :=
  ⟨.fresh, aram, mram, false, false, [], .idle, fun _ => none, [], []⟩

inductive DmaOp where
  /-- `bnr_cache_get`, `bnr_cache_put` called by themselves. -/
  | get (key : UInt32) (buf : Nat)
  | put (key : UInt32) (buf : Nat)
  /-- A buffer prepared for a call. -/
  | write (buf : Nat) (b : BnrImage)
  | load (useCache : Bool) (key : UInt32) (room : Bool)
  /-- The banner file opened and read; `none` if it cannot be opened. -/
  | file (b : Option BnrImage)
  /-- One look at the busy flag, `late` if 500 ms are over. -/
  | poll (late : Bool)
  /-- The next of the two copies to the entry. -/
  | copy
  | complete (n : Nat)

/-- From the label `cached` on. -/
def DmaSys.setUp (s : DmaSys) (room : Bool) (banner : BnrImage) : DmaSys :=
  { s with phase := if room then .copying banner else .idle }

/-- Back from `bnr_cache_put`. -/
def DmaSys.afterPut (s : DmaSys) (given : BnrImage) : Caller → DmaSys
  | .direct => { s with phase := .idle }
  | .loadBanner room => s.setUp room given

/-- Back from `bnr_cache_get`. -/
def DmaSys.afterGet (s : DmaSys) (key : UInt32) (buf : Nat) (found : Bool) : Caller → DmaSys
  | .direct => { s with phase := .idle }
  | .loadBanner room => if found then s.setUp room (s.mram buf) else { s with phase := .reading true key room }

/-- `bnr_cache_get` up to the wait in `bnr_cache_load`. -/
def DmaSys.startGet (s : DmaSys) (caller : Caller) (key : UInt32) (buf : Nat) : DmaSys :=
  if s.cache.broken then s.afterGet key buf false caller
  else
    match s.cache.find key with
    | some i =>
      { s with
        loadBsy := true
        inflight := s.inflight ++ [⟨false, buf, (s.cache.entries i).aramOffset⟩]
        phase := .getting caller key buf }
    | none => s.afterGet key buf false caller

/-- `bnr_cache_put` up to the wait in `bnr_cache_store`. -/
def DmaSys.startPut (s : DmaSys) (caller : Caller) (key : UInt32) (buf : Nat) : DmaSys :=
  if s.cache.broken then s.afterPut (s.mram buf) caller
  else
    match s.cache.find key with
    | some _ => s.afterPut (s.mram buf) caller
    | none =>
      { s with
        cache := s.cache.claim key
        storeBsy := true
        inflight := s.inflight ++ [⟨true, buf, aramArea s.cache.nextIndex⟩]
        phase := .putting caller key buf (s.mram buf) }

/-- The cache is switched off. -/
def DmaSys.giveUp (s : DmaSys) : DmaSys := { s with cache := { s.cache with broken := true } }

def DmaSys.poll (s : DmaSys) (late : Bool) : DmaSys :=
  match s.phase with
  | .getting caller key buf =>
    if !s.loadBsy then
      { s with hits := (s.latest key, s.mram buf) :: s.hits }.afterGet key buf true caller
    else if late then s.giveUp.afterGet key buf false caller
    else s
  | .putting caller key _ given =>
    if !s.storeBsy then
      { s with
        cache := s.cache.commit
        latest := Function.update s.latest key (some given) }.afterPut given caller
    else if late then s.giveUp.afterPut given caller
    else s
  | _ => s

/-- A transfer copies, and its callback clears its busy flag. -/
def DmaSys.land (s : DmaSys) (t : Transfer) : DmaSys :=
  if t.toAram then { s with aram := s.aram.store t.aramOffset (s.mram t.buf), storeBsy := false }
  else { s with mram := Function.update s.mram t.buf (s.aram.fetch t.aramOffset), loadBsy := false }

def dmaStep (s : DmaSys) : DmaOp → DmaSys
  | .get key buf => match s.phase with
    | .idle => s.startGet .direct key buf
    | _ => s
  | .put key buf => match s.phase with
    | .idle => s.startPut .direct key buf
    | _ => s
  | .write buf b => match s.phase with
    | .idle => { s with mram := Function.update s.mram buf b }
    | _ => s
  | .load useCache key room => match s.phase with
    | .idle =>
      if useCache then s.startGet (.loadBanner room) key bannerBuffer
      else { s with phase := .reading false key room }
    | _ => s
  | .file b => match s.phase, b with
    | .reading useCache key room, some b =>
      let s := { s with mram := Function.update s.mram bannerBuffer b }
      if useCache then s.startPut (.loadBanner room) key bannerBuffer else s.setUp room b
    | .reading _ _ _, none => { s with phase := .idle } -- could not open file
    | _, _ => s
  | .poll late => s.poll late
  | .copy => match s.phase with
    | .copying banner => { s with phase := .describing banner (s.mram bannerBuffer).bnr.pixelData }
    | .describing banner pixels =>
      { s with phase := .idle, copied := (banner, pixels, (s.mram bannerBuffer).bnr.desc) :: s.copied }
    | _ => s
  | .complete n =>
    match s.inflight[n]? with
    | some t => { s with inflight := s.inflight.eraseIdx n }.land t
    | none => s

/-! ## What must hold -/

/-- The banner a load has in hand is the one it fetched. -/
def DmaSys.InHand (s : DmaSys) : Prop :=
  match s.phase with
  | .copying banner => (s.mram bannerBuffer).bnr.pixelData = banner.bnr.pixelData ∧
      (s.mram bannerBuffer).bnr.desc = banner.bnr.desc
  | .describing banner pixels => pixels = banner.bnr.pixelData ∧
      (s.mram bannerBuffer).bnr.desc = banner.bnr.desc
  | _ => True

structure DmaOk (s : DmaSys) : Prop where
  hits : ∀ l b, (l, b) ∈ s.hits → l = some b
  unique : ∀ i j, (s.cache.entries i).valid = true → (s.cache.entries j).valid = true →
    (s.cache.entries i).key = (s.cache.entries j).key → i = j
  /-- An entry no put has reached has no area. -/
  areas : ∀ i j, i ≠ j → (s.cache.entries i).aramOffset ≠ 0 → (s.cache.entries j).aramOffset ≠ 0 →
    (s.cache.entries i).aramOffset + bnrSize ≤ (s.cache.entries j).aramOffset ∨
      (s.cache.entries j).aramOffset + bnrSize ≤ (s.cache.entries i).aramOffset
  inHand : s.InHand
  copied : ∀ b px d, (b, px, d) ∈ s.copied → px = b.bnr.pixelData ∧ d = b.bnr.desc

/-- A load that lands in `banner_buffer` while a banner load has copies to make
brings what is there already. -/
def LandsSafely (s : DmaSys) : DmaOp → Prop
  | .complete n => ∀ t, s.inflight[n]? = some t → t.toAram = false → t.buf = bannerBuffer →
      match s.phase with
      | .copying _ =>
        (s.aram.fetch t.aramOffset).bnr.pixelData = (s.mram bannerBuffer).bnr.pixelData ∧
          (s.aram.fetch t.aramOffset).bnr.desc = (s.mram bannerBuffer).bnr.desc
      | .describing _ _ => (s.aram.fetch t.aramOffset).bnr.desc = (s.mram bannerBuffer).bnr.desc
      | _ => True
  | _ => True

/-! ## The invariant -/

/-- Nothing is under way but at most one transfer that was given up; a store among
these goes to the area of an entry that is not valid. -/
def DmaSys.Settled (s : DmaSys) : Prop :=
  s.inflight = [] ∨ (s.cache.broken = true ∧ ∃ t, s.inflight = [t] ∧
    (t.toAram = true → t.aramOffset = aramArea s.cache.nextIndex ∧ s.cache.holds s.cache.nextIndex = none))

/-- `gm_load_banner` passes its own buffer. -/
def Caller.Passes (caller : Caller) (buf : Nat) : Prop := caller ≠ .direct → buf = bannerBuffer

/-- While a get waits, its load is under way or has brought the banner. -/
def DmaSys.Getting (s : DmaSys) (key : UInt32) (buf : Nat) : Prop :=
  s.cache.broken = false ∧ ∃ i, s.cache.holds i = some key ∧
    ((s.loadBsy = true ∧ s.inflight = [⟨false, buf, aramArea i⟩]) ∨
      (s.loadBsy = false ∧ s.inflight = [] ∧ s.latest key = some (s.mram buf)))

/-- While a put waits, its store is under way or has filled the area of the entry
it claimed. -/
def DmaSys.Putting (s : DmaSys) (key : UInt32) (buf : Nat) (given : BnrImage) : Prop :=
  s.cache.broken = false ∧ s.cache.entries s.cache.nextIndex = ⟨key, aramArea s.cache.nextIndex, false⟩ ∧
    (∀ i, s.cache.holds i ≠ some key) ∧ s.mram buf = given ∧
    ((s.storeBsy = true ∧ s.inflight = [⟨true, buf, aramArea s.cache.nextIndex⟩]) ∨
      (s.storeBsy = false ∧ s.inflight = [] ∧ aramContent s.aram s.cache.nextIndex = given))

def DmaSys.PhaseOk (s : DmaSys) : Prop :=
  match s.phase with
  | .getting caller key buf => caller.Passes buf ∧ s.Getting key buf
  | .putting caller key buf given => caller.Passes buf ∧ s.Putting key buf given
  | _ => s.Settled

structure DmaInv (s : DmaSys) : Prop where
  cache : BnrCacheOk s.cache s.aram s.latest
  hits : ∀ l b, (l, b) ∈ s.hits → l = some b
  phase : s.PhaseOk

/-- What the loads copied and have in hand. -/
structure DmaSys.Intact (s : DmaSys) : Prop where
  inHand : s.InHand
  copied : ∀ b px d, (b, px, d) ∈ s.copied → px = b.bnr.pixelData ∧ d = b.bnr.desc

/-- No call waits. -/
structure DmaSys.Free (s : DmaSys) : Prop where
  cache : BnrCacheOk s.cache s.aram s.latest
  hits : ∀ l b, (l, b) ∈ s.hits → l = some b
  settled : s.Settled

/-- Where nothing was given up, nothing is under way. -/
theorem DmaSys.Free.empty {s : DmaSys} (h : s.Free) (hb : s.cache.broken = false) : s.inflight = [] := by
  rcases h.settled with hs | ⟨hbroken, -⟩
  · exact hs
  · rw [hb] at hbroken
    cases hbroken

/-- What a part of a call leaves behind: the invariant, and no copy spoiled. -/
structure CallLeaves (copied : List (BnrImage × List UInt8 × BnrDesc)) (s : DmaSys) : Prop where
  inv : DmaInv s
  intact : (∀ b px d, (b, px, d) ∈ copied → px = b.bnr.pixelData ∧ d = b.bnr.desc) → s.Intact

section
variable {s : DmaSys} {caller : Caller} {buf : Nat}

theorem idle_leaves (h : s.Free) : CallLeaves s.copied { s with phase := .idle } :=
  ⟨⟨h.cache, h.hits, h.settled⟩, fun hc => ⟨trivial, hc⟩⟩

theorem setUp_leaves (h : s.Free) (room : Bool) {banner : BnrImage} (hb : s.mram bannerBuffer = banner) :
    CallLeaves s.copied (s.setUp room banner) := by
  cases room with
  | false => exact idle_leaves h
  | true =>
    subst hb
    exact ⟨⟨h.cache, h.hits, h.settled⟩, fun hc => ⟨⟨rfl, rfl⟩, hc⟩⟩

theorem afterPut_leaves (h : s.Free) (hp : caller.Passes buf) {given : BnrImage} (hb : s.mram buf = given) :
    CallLeaves s.copied (s.afterPut given caller) := by
  cases caller with
  | direct => exact idle_leaves h
  | loadBanner room =>
    obtain rfl : buf = bannerBuffer := hp (by simp)
    exact setUp_leaves h room hb

theorem afterGet_leaves (h : s.Free) (key : UInt32) (hp : caller.Passes buf) (found : Bool) :
    CallLeaves s.copied (s.afterGet key buf found caller) := by
  cases caller with
  | direct => exact idle_leaves h
  | loadBanner room =>
    obtain rfl : buf = bannerBuffer := hp (by simp)
    cases found with
    | true => exact setUp_leaves h room rfl
    | false => exact ⟨⟨h.cache, h.hits, h.settled⟩, fun hc => ⟨trivial, hc⟩⟩

theorem startGet_leaves (h : s.Free) (key : UInt32) (hp : caller.Passes buf) :
    CallLeaves s.copied (s.startGet caller key buf) := by
  unfold DmaSys.startGet
  cases hbr : s.cache.broken with
  | true => exact afterGet_leaves h key hp false
  | false =>
    cases hf : s.cache.find key with
    | none => exact afterGet_leaves h key hp false
    | some i =>
      have hheld := find_some hf
      have hflight : s.inflight ++ [⟨false, buf, (s.cache.entries i).aramOffset⟩] = [⟨false, buf, aramArea i⟩] := by
        rw [h.empty hbr, h.cache.area_of_holds hheld, List.nil_append]
      exact ⟨⟨h.cache, h.hits, hp, hbr, i, hheld, .inl ⟨rfl, hflight⟩⟩, fun hc => ⟨trivial, hc⟩⟩

theorem startPut_leaves (h : s.Free) (key : UInt32) (hp : caller.Passes buf) :
    CallLeaves s.copied (s.startPut caller key buf) := by
  unfold DmaSys.startPut
  cases hbr : s.cache.broken with
  | true => exact afterPut_leaves h hp rfl
  | false =>
    cases hf : s.cache.find key with
    | some i => exact afterPut_leaves h hp rfl
    | none =>
      have hflight : s.inflight ++ [⟨true, buf, aramArea s.cache.nextIndex⟩] =
          [⟨true, buf, aramArea s.cache.nextIndex⟩] := by
        rw [h.empty hbr, List.nil_append]
      exact ⟨⟨claim_ok h.cache key, h.hits, hp, hbr, claim_entry _ key, claim_holds_ne (find_none hf) key, rfl,
        .inl ⟨rfl, hflight⟩⟩, fun hc => ⟨trivial, hc⟩⟩

end

/-! ## The steps -/

/-- A look at the busy flag. -/
theorem poll_leaves {s : DmaSys} (h : DmaInv s) (late : Bool) :
    CallLeaves s.copied (s.poll late) ∨ s.poll late = s := by
  have hphase := h.phase
  unfold DmaSys.PhaseOk at hphase
  unfold DmaSys.poll
  split
  · rename_i caller key buf hp
    rw [hp] at hphase
    obtain ⟨hpass, hbr, i, hheld, hway⟩ := hphase
    rcases hway with ⟨hbsy, hfl⟩ | ⟨hbsy, hfl, hlatest⟩
    · rw [if_neg (by simp [hbsy])]
      split
      · -- given up: the load may still land
        left
        have hfree : s.giveUp.Free :=
          ⟨⟨h.cache.faithful, h.cache.area⟩, h.hits, .inr ⟨rfl, _, hfl, fun hstore => by cases hstore⟩⟩
        exact afterGet_leaves hfree key hpass false
      · exact .inr rfl
    · left
      rw [if_pos (by simp [hbsy])]
      have hfree : ({ s with hits := (s.latest key, s.mram buf) :: s.hits } : DmaSys).Free := by
        refine ⟨h.cache, fun l b hlb => ?_, .inl hfl⟩
        rcases List.mem_cons.mp hlb with hlb | hlb
        · obtain ⟨rfl, rfl⟩ := Prod.mk.inj hlb
          exact hlatest
        · exact h.hits l b hlb
      exact afterGet_leaves hfree key hpass true
  · rename_i caller key buf given hp
    rw [hp] at hphase
    obtain ⟨hpass, hbr, hentry, hnot, hgiven, hway⟩ := hphase
    rcases hway with ⟨hbsy, hfl⟩ | ⟨hbsy, hfl, hcontent⟩
    · rw [if_neg (by simp [hbsy])]
      split
      · -- given up: the store may still fill the area of the entry it claimed
        left
        have hinvalid : s.cache.holds s.cache.nextIndex = none := by simp [BnrCache.holds, hentry]
        have hfree : s.giveUp.Free :=
          ⟨⟨h.cache.faithful, h.cache.area⟩, h.hits, .inr ⟨rfl, _, hfl, fun _ => ⟨rfl, hinvalid⟩⟩⟩
        exact afterPut_leaves hfree hpass hgiven
      · exact .inr rfl
    · left
      rw [if_pos (by simp [hbsy])]
      have hdone := commit_ok h.cache (by rw [hentry]; exact hnot) (by rw [hentry])
      rw [hentry, hcontent] at hdone
      have hfree : ({ s with
          cache := s.cache.commit
          latest := Function.update s.latest key (some given) } : DmaSys).Free := ⟨hdone, h.hits, .inl hfl⟩
      exact afterPut_leaves hfree hpass hgiven
  · exact .inr rfl

theorem land_store (s : DmaSys) {t : Transfer} (h : t.toAram = true) :
    s.land t = { s with aram := s.aram.store t.aramOffset (s.mram t.buf), storeBsy := false } := by
  rw [DmaSys.land, if_pos h]

theorem land_load (s : DmaSys) {t : Transfer} (h : t.toAram = false) :
    s.land t =
      { s with mram := Function.update s.mram t.buf (s.aram.fetch t.aramOffset), loadBsy := false } := by
  rw [DmaSys.land, if_neg (by simp [h])]

/-- A transfer lands where its phase expects it, or the cache is off and it is late. -/
theorem land_inv {s : DmaSys} (h : DmaInv s) {n : Nat} {t : Transfer} (ht : s.inflight[n]? = some t) :
    DmaInv ({ s with inflight := s.inflight.eraseIdx n }.land t) := by
  have hphase := h.phase
  -- every phase has at most one transfer under way
  have hone : ∀ {t' : Transfer}, s.inflight = [t'] → t = t' ∧ s.inflight.eraseIdx n = [] := by
    intro t' hfl
    rw [hfl] at ht ⊢
    cases n with
    | zero => exact ⟨(Option.some.inj ht).symm, rfl⟩
    | succ n => simp at ht
  have hsome : s.inflight ≠ [] := by
    intro hnil
    rw [hnil] at ht
    cases ht
  unfold DmaSys.PhaseOk at hphase
  cases hp : s.phase with
  | getting caller key buf =>
    rw [hp] at hphase
    obtain ⟨hpass, hbr, i, hheld, ⟨hbsy, hfl⟩ | ⟨-, hfl, -⟩⟩ := hphase
    · obtain ⟨rfl, hnil⟩ := hone hfl
      have hlatest : s.latest key = some (s.aram.fetch (aramArea i)) := h.cache.faithful.latest hheld
      rw [land_load _ rfl]
      refine ⟨h.cache, h.hits, ?_⟩
      simp only [DmaSys.PhaseOk, hnil]
      refine ⟨hpass, hbr, i, hheld, .inr ⟨rfl, rfl, ?_⟩⟩
      simpa using hlatest
    · exact absurd hfl hsome
  | putting caller key buf given =>
    rw [hp] at hphase
    obtain ⟨hpass, hbr, hentry, hnot, hgiven, ⟨hbsy, hfl⟩ | ⟨-, hfl, -⟩⟩ := hphase
    · obtain ⟨rfl, hnil⟩ := hone hfl
      have hinvalid : s.cache.holds s.cache.nextIndex = none := by simp [BnrCache.holds, hentry]
      have hfilled :
          aramContent (s.aram.store (aramArea s.cache.nextIndex) (s.mram buf)) s.cache.nextIndex = given := by
        rw [aramContent, fetch_store, hgiven]
      have hstored := store_ok h.cache hinvalid (s.mram buf)
      rw [land_store _ rfl]
      refine ⟨hstored, h.hits, ?_⟩
      simp only [DmaSys.PhaseOk, hnil]
      exact ⟨hpass, hbr, hentry, hnot, hgiven, .inr ⟨rfl, rfl, hfilled⟩⟩
    · exact absurd hfl hsome
  | idle | reading | copying | describing =>
    rw [hp] at hphase
    rcases hphase with hfl | ⟨hbr, t', hfl, hstore⟩
    · exact absurd hfl hsome
    · obtain ⟨rfl, hnil⟩ := hone hfl
      cases hdir : t.toAram with
      | true =>
        obtain ⟨harea, hinvalid⟩ := hstore hdir
        have hstored := store_ok h.cache hinvalid (s.mram t.buf)
        rw [land_store _ hdir, harea]
        refine ⟨hstored, h.hits, ?_⟩
        simp only [DmaSys.PhaseOk]
        exact .inl hnil
      | false =>
        rw [land_load _ hdir]
        refine ⟨h.cache, h.hits, ?_⟩
        simp only [DmaSys.PhaseOk]
        exact .inl hnil

/-- What is in hand stays so exactly when the transfer lands safely. -/
theorem land_intact_iff {s : DmaSys} (h : s.Intact) {n : Nat} {t : Transfer} (ht : s.inflight[n]? = some t) :
    ({ s with inflight := s.inflight.eraseIdx n }.land t).Intact ↔ LandsSafely s (.complete n) := by
  have hentry : ∀ t', s.inflight[n]? = some t' → t' = t := fun t' ht' =>
    Option.some.inj (ht'.symm.trans ht)
  have hhand := h.inHand
  cases hdir : t.toAram with
  | true =>
    rw [land_store _ hdir]
    refine iff_of_true ⟨hhand, h.copied⟩ fun t' ht' hload => ?_
    rw [hentry t' ht', hdir] at hload
    cases hload
  | false =>
    rw [land_load _ hdir]
    by_cases hbuf : t.buf = bannerBuffer
    · -- the bytes that land take the place of those in hand
      have hiff : ({ s with
          inflight := s.inflight.eraseIdx n
          mram := Function.update s.mram t.buf (s.aram.fetch t.aramOffset)
          loadBsy := false } : DmaSys).InHand ↔ LandsSafely s (.complete n) := by
        unfold DmaSys.InHand at hhand
        cases hp : s.phase with
        | idle | getting | reading | putting =>
          refine iff_of_true ?_ fun t' _ _ _ => by rw [hp]; trivial
          simp [DmaSys.InHand]
        | copying banner | describing banner pixels =>
          rw [hp] at hhand
          simp [DmaSys.InHand, LandsSafely, hdir, hp, ht, hbuf, hhand.1, hhand.2]
      exact ⟨fun hi => hiff.mp hi.inHand, fun hl => ⟨hiff.mpr hl, h.copied⟩⟩
    · refine iff_of_true ⟨?_, h.copied⟩ fun t' ht' _ hb => ?_
      · unfold DmaSys.InHand at hhand ⊢
        simpa [Function.update_of_ne (Ne.symm hbuf)] using hhand
      · rw [hentry t' ht'] at hb
        exact absurd hb hbuf

/-- A step of the thread, the two copies apart. -/
theorem thread_leaves {s : DmaSys} (h : DmaInv s) (op : DmaOp) (hcopy : op ≠ .copy)
    (hcomplete : ∀ n, op ≠ .complete n) : CallLeaves s.copied (dmaStep s op) ∨ dmaStep s op = s := by
  have hphase := h.phase
  unfold DmaSys.PhaseOk at hphase
  cases op with
  | copy => exact absurd rfl hcopy
  | complete n => exact absurd rfl (hcomplete n)
  | poll late => exact poll_leaves h late
  | get key buf =>
    simp only [dmaStep]
    split
    · rename_i hp
      rw [hp] at hphase
      exact .inl (startGet_leaves ⟨h.cache, h.hits, hphase⟩ key fun hne => absurd rfl hne)
    · exact .inr rfl
  | put key buf =>
    simp only [dmaStep]
    split
    · rename_i hp
      rw [hp] at hphase
      exact .inl (startPut_leaves ⟨h.cache, h.hits, hphase⟩ key fun hne => absurd rfl hne)
    · exact .inr rfl
  | write buf b =>
    simp only [dmaStep]
    split
    · rename_i hp
      rw [hp] at hphase
      refine .inl ⟨⟨h.cache, h.hits, ?_⟩, fun hc => ⟨?_, hc⟩⟩
      · simp only [DmaSys.PhaseOk, hp]
        exact hphase
      · simp only [DmaSys.InHand, hp]
    · exact .inr rfl
  | load useCache key room =>
    simp only [dmaStep]
    split
    · rename_i hp
      rw [hp] at hphase
      left
      split
      · exact startGet_leaves ⟨h.cache, h.hits, hphase⟩ key fun _ => rfl
      · exact ⟨⟨h.cache, h.hits, hphase⟩, fun hc => ⟨trivial, hc⟩⟩
    · exact .inr rfl
  | file b =>
    simp only [dmaStep]
    split
    · rename_i useCache key room banner hp
      rw [hp] at hphase
      left
      -- the file is in the static buffer, and no transfer has it
      have hfree : ({ s with mram := Function.update s.mram bannerBuffer banner } : DmaSys).Free :=
        ⟨h.cache, h.hits, hphase⟩
      split
      · exact startPut_leaves hfree key fun _ => rfl
      · exact setUp_leaves hfree room (Function.update_self bannerBuffer banner s.mram)
    · rename_i hp
      rw [hp] at hphase
      exact .inl (idle_leaves ⟨h.cache, h.hits, hphase⟩)
    · exact .inr rfl

theorem dmaStep_inv {s : DmaSys} (h : DmaInv s) (op : DmaOp) : DmaInv (dmaStep s op) := by
  by_cases hcopy : op = .copy
  · have hphase := h.phase
    unfold DmaSys.PhaseOk at hphase
    subst hcopy
    simp only [dmaStep]
    split
    · rename_i hp
      rw [hp] at hphase
      exact ⟨h.cache, h.hits, hphase⟩
    · rename_i hp
      rw [hp] at hphase
      exact ⟨h.cache, h.hits, hphase⟩
    · exact h
  · by_cases hcomplete : ∃ n, op = .complete n
    · obtain ⟨n, rfl⟩ := hcomplete
      simp only [dmaStep]
      split
      · rename_i t ht
        exact land_inv h ht
      · exact h
    · rcases thread_leaves h op hcopy fun n hn => hcomplete ⟨n, hn⟩ with hl | hsame
      · exact hl.inv
      · rw [hsame]
        exact h

theorem dmaStep_intact_iff {s : DmaSys} (h : DmaInv s) (hi : s.Intact) (op : DmaOp) :
    (dmaStep s op).Intact ↔ LandsSafely s op := by
  by_cases hcopy : op = .copy
  · subst hcopy
    have hhand := hi.inHand
    unfold DmaSys.InHand at hhand
    refine iff_of_true ?_ trivial
    simp only [dmaStep]
    split
    · rename_i banner hp
      rw [hp] at hhand
      exact ⟨hhand, hi.copied⟩
    · rename_i banner pixels hp
      rw [hp] at hhand
      refine ⟨trivial, fun b px d hb => ?_⟩
      rcases List.mem_cons.mp hb with hb | hb
      · cases hb
        exact hhand
      · exact hi.copied b px d hb
    · exact hi
  · by_cases hcomplete : ∃ n, op = .complete n
    -- a transfer lands
    · obtain ⟨n, rfl⟩ := hcomplete
      cases ht : s.inflight[n]? with
      | some t =>
        simp only [dmaStep, ht]
        exact land_intact_iff hi ht
      | none =>
        simp only [dmaStep, ht]
        refine iff_of_true hi fun t ht' => ?_
        rw [ht] at ht'
        cases ht'
    · have hsafe : LandsSafely s op := by
        cases op <;> first | trivial | exact absurd ⟨_, rfl⟩ hcomplete
      refine iff_of_true ?_ hsafe
      rcases thread_leaves h op hcopy fun n hn => hcomplete ⟨n, hn⟩ with hl | hsame
      · exact hl.intact hi.copied
      · rw [hsame]
        exact hi

/-! ## Over every run -/

theorem dmaStart_inv (aram : Aram) (mram : Nat → BnrImage) : DmaInv (.start aram mram) :=
  ⟨fresh_ok aram _, fun l b h => (by cases h), .inl rfl⟩

theorem dmaRun_inv (aram : Aram) (mram : Nat → BnrImage) (ops : List DmaOp) :
    DmaInv (Steps.run dmaStep (.start aram mram) ops) :=
  Steps.inv_run DmaInv (fun _ op h _ => dmaStep_inv h op) (dmaStart_inv aram mram) (Steps.guarded_true ops)

theorem DmaInv.ok_iff {s : DmaSys} (h : DmaInv s) : DmaOk s ↔ s.Intact := by
  refine ⟨fun hok => ⟨hok.inHand, hok.copied⟩, fun hi => ⟨h.hits, ?_, ?_, hi.inHand, hi.copied⟩⟩
  · intro i j hvi hvj hkey
    have hi' : s.cache.holds i = some (s.cache.entries i).key := by simp [BnrCache.holds, hvi]
    have hj' : s.cache.holds j = some (s.cache.entries i).key := by simp [BnrCache.holds, hvj, hkey]
    exact h.cache.faithful.unique hi' hj'
  · intro i j hne hoi hoj
    have harea : ∀ i, (s.cache.entries i).aramOffset ≠ 0 → (s.cache.entries i).aramOffset = aramArea i :=
      fun i hoi => (h.cache.area i).resolve_right fun h0 => hoi h0.1
    rw [harea i hoi, harea j hoj]
    exact areas_disjoint hne

/-- Whatever completes when: no get says true of anything but the banner last
stored under its key. -/
theorem cache_sound (aram : Aram) (mram : Nat → BnrImage) (ops : List DmaOp) {l : Option BnrImage} {b : BnrImage}
    (h : (l, b) ∈ (Steps.run dmaStep (.start aram mram) ops).hits) : l = some b :=
  (dmaRun_inv aram mram ops).hits l b h

def plainImage (x : UInt8) : BnrImage := fun _ => x

def lateLoad : List DmaOp :=
  [.write bannerBuffer (plainImage 1), .put 7 bannerBuffer, .complete 0, .poll false,
    .load true 7 true, .poll true, .file (some (plainImage 1)), .copy, .copy,
    .load true 8 true, .file (some (plainImage 2)), .complete 0, .copy, .copy]

/-- The first pixel fetched and the first pixel copied, by the last load. -/
def DmaSys.lastCopy (s : DmaSys) : Option (Option UInt8 × Option UInt8) :=
  s.copied.head?.map fun c => (c.1.bnr.pixelData.head?, c.2.1.head?)

theorem DmaOk.lastCopy {s : DmaSys} (h : DmaOk s) {x y : Option UInt8} (hc : s.lastCopy = some (x, y)) : x = y := by
  obtain ⟨⟨b, px, d⟩, hr, hb⟩ := Option.map_eq_some_iff.mp hc
  obtain ⟨hx, hy⟩ := Prod.mk.inj hb
  have hpx := (h.copied b px d (List.mem_of_head? hr)).1
  rw [← hx, ← hy, hpx]

/-- A put whose store completes before the flag is looked at does what
`bnrCachePut` says. -/
theorem put_in_time {s : DmaSys} (hp : s.phase = .idle) (hfl : s.inflight = []) (key : UInt32) (buf : Nat) :
    let s' := Steps.run dmaStep s [.put key buf, .complete 0, .poll false]
    (s'.cache, s'.aram) = bnrCachePut s.cache s.aram key (s.mram buf) ∧ s'.mram = s.mram ∧ s'.phase = .idle := by
  simp only [Steps.run_cons, Steps.run_nil, dmaStep, hp]
  unfold DmaSys.startPut bnrCachePut
  cases hbr : s.cache.broken with
  | true => simp [DmaSys.afterPut, hfl, DmaSys.poll]
  | false =>
    cases hf : s.cache.find key with
    | some i => simp [DmaSys.afterPut, hfl, DmaSys.poll]
    | none => simp [hfl, DmaSys.land, DmaSys.poll, DmaSys.afterPut]

end Cubiboot
