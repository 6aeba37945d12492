import Cubiboot.Elf

/-
  Reading a GC Loader (`emu/gcode.c`, over the identification of `emu/drive_probe.c`).

  A transfer asks the drive for sectors and says where in memory they go. `answer` is what
  becomes of one, of those before it whatever the drive likes: whether the wait for it ended,
  whether it left the error bit, and what has arrived by then. A drive that is taken for a
  `GcLoader` has delivered what was asked for where neither went wrong, and never more than
  that. The DMA's address is the program's without its top three bits, and the cache lines of
  the target are dropped around it: both are the same memory here. The aligned sector of the
  other path is a static one, apart from what the caller has.

  What is proved:
    1. `driveProbe_gcode` — identified, if not before, by an inquiry that answered with its date.
    2. `ReadsSectors.andThen`, `ReadsSectors.stopped` — two reads behind each other are one,
       and one that fails has failed for all that was still to come.
    3. `bounceLoop_reads`, `directLoop_reads` — either loop reads what is asked for.
    4. `gcode_read` — the call does, in as many sectors at a time as the address allows.

  Correspondence (C ↔ Lean):
    `drive_id_t`, `drive_probe`, its loop ↔ `DriveId`, `driveProbe`, `probeLoop`
    `di_wait`, `DI_SR_DEINT`              ↔ `GcodeAnswer.done`, `GcodeAnswer.deint`
    `gcode_read_aligned`                  ↔ `gcodeReadAligned`
    `gcode_sd_init`                       ↔ `gcodeSdInit`
    `gcode_sd_read`, its loops            ↔ `gcodeSdRead`, `bounceLoop`, `directLoop`
-/

set_option autoImplicit false

namespace Cubiboot

open Overlay

/-! ## Which drive -/

/-- `drive_id_t`. -/
inductive DriveId where
  | none | unknown | gcode | flippy
  deriving DecidableEq, Repr

def relDateGcode : UInt32 := 0x20196c64

def relDateFlippyFw : UInt32 := 0x20220426

def driveProbeTries : Nat := 40

/-- What comes of an inquiry: nothing drove the bus, the error bit, or a date. -/
inductive Inquiry where
  | stuck
  | error
  | answered (relDate : UInt32)

/-- So many more tries; a drive that is still waking up is asked again. -/
def probeLoop (inquiry : Nat → Inquiry) : Nat → Nat → DriveId
  | 0, _ => .none
  | left + 1, i =>
    match inquiry i with
    | .stuck => .none
    | .error => probeLoop inquiry left (i + 1)
    | .answered relDate =>
      if relDate = relDateGcode then .gcode
      else if relDate = relDateFlippyFw then .flippy
      else if relDate ≠ 0 then .unknown
      else probeLoop inquiry left (i + 1)

/-- `cachedId` is `cached_id`, if there is one. -/
def driveProbe (inquiry : Nat → Inquiry) (cachedId : Option DriveId) : DriveId :=
  match cachedId with
  | some id => id
  | none => probeLoop inquiry driveProbeTries 0

theorem probeLoop_gcode {inquiry : Nat → Inquiry} {left : Nat} : ∀ {i : Nat},
    probeLoop inquiry left i = .gcode → ∃ j, i ≤ j ∧ j < i + left ∧ inquiry j = .answered relDateGcode := by
  induction left with
  | zero =>
    intro i h
    cases h
  | succ left ih =>
    intro i h
    have hlater : probeLoop inquiry left (i + 1) = .gcode →
        ∃ j, i ≤ j ∧ j < i + (left + 1) ∧ inquiry j = .answered relDateGcode := by
      intro hrest
      obtain ⟨j, hle, hlt, hj⟩ := ih hrest
      exact ⟨j, by omega, by omega, hj⟩
    rw [probeLoop] at h
    cases hanswer : inquiry i with
    | stuck => simp [hanswer] at h
    | error =>
      rw [hanswer] at h
      exact hlater h
    | answered relDate =>
      simp only [hanswer] at h
      split at h
      · rename_i hdate
        exact ⟨i, Nat.le_refl i, by omega, hdate ▸ hanswer⟩
      · split at h
        · cases h
        · split at h
          · cases h
          · exact hlater h

theorem driveProbe_gcode {inquiry : Nat → Inquiry} {cachedId : Option DriveId}
    (h : driveProbe inquiry cachedId = .gcode) :
    cachedId = some .gcode ∨ ∃ j < driveProbeTries, inquiry j = .answered relDateGcode := by
  cases cachedId with
  | some id => exact Or.inl (congrArg some h)
  | none =>
    obtain ⟨j, -, hlt, hj⟩ := probeLoop_gcode h
    exact Or.inr ⟨j, by omega, hj⟩

/-! ## Transfers -/

def gcodeSectorSize : Nat := 512

/-- 64 KiB per transfer. -/
def gcodeMaxSectors : Nat := 128

/-- A transfer that was issued, and whether it went well. -/
structure GcodeTransfer where
  sector : UInt32
  len : Nat
  ok : Bool
  deriving DecidableEq

/-- `left` is what has arrived, by its offset. -/
structure GcodeAnswer where
  done : Bool
  deint : Bool
  left : Nat → Option UInt8

def GcodeAnswer.ok (ans : GcodeAnswer) : Bool := ans.done && !ans.deint

/-- The transfers before it, the sector and the length make an answer. -/
structure GcLoader where
  disk : UInt32 → Nat → UInt8
  answer : List GcodeTransfer → UInt32 → Nat → GcodeAnswer
  within : ∀ before sector len k, len ≤ k → (answer before sector len).left k = none
  exact : ∀ before sector len, (answer before sector len).ok = true → ∀ k < len,
    (answer before sector len).left k = some (disk (sector + UInt32.ofNat (k / 512)) (k % 512))

/-- `issued` is history. -/
structure GcodeState where
  cachedId : Option DriveId
  mem : DolMem
  bounce : Nat → UInt8
  issued : List GcodeTransfer

/-- Where a transfer goes. -/
inductive DmaTarget where
  | memory (dst : UInt32)
  | bounce

def GcodeState.arrive (s : GcodeState) (left : Nat → Option UInt8) : DmaTarget → GcodeState
  | .memory dst => { s with mem := lay s.mem fun a => left (a - dst).toNat }
  | .bounce => { s with bounce := fun k => (left k).getD (s.bounce k) }

def gcodeReadAligned (drive : GcLoader) (sector : UInt32) (target : DmaTarget) (len : Nat) (s : GcodeState) :
    Bool × GcodeState :=
  let ans := drive.answer s.issued sector len
  let s := s.arrive ans.left target
  (ans.ok, { s with issued := s.issued ++ [⟨sector, len, ans.ok⟩] })

/-- `memcpy(dst, bounce, GCODE_SECTOR_SIZE)`. -/
def GcodeState.copyBounce (s : GcodeState) (dst : UInt32) : GcodeState :=
  { s with mem := lay s.mem (spanWrite dst gcodeSectorSize s.bounce) }

/-- The `i`th sector of so many more. -/
def bounceLoop (drive : GcLoader) (sector data : UInt32) : Nat → Nat → GcodeState → Bool × GcodeState
  | 0, _, s => (true, s)
  | left + 1, i, s =>
    let (ok, s) := gcodeReadAligned drive (sector + UInt32.ofNat i) .bounce gcodeSectorSize s
    if !ok then (false, s)
    else bounceLoop drive sector data left (i + 1) (s.copyBounce (data + UInt32.ofNat (i * gcodeSectorSize)))

/-- Every round takes at least one sector of `fuel`. -/
def directLoop (drive : GcLoader) : Nat → UInt32 → UInt32 → Nat → GcodeState → Bool × GcodeState
  | 0, _, _, _, s => (true, s)
  | fuel + 1, sector, data, count, s =>
    if count = 0 then (true, s)
    else
      let chunk := if gcodeMaxSectors < count then gcodeMaxSectors else count
      let (ok, s) := gcodeReadAligned drive sector (.memory data) (chunk * gcodeSectorSize) s
      if !ok then (false, s)
      else
        directLoop drive fuel (sector + UInt32.ofNat chunk) (data + UInt32.ofNat (chunk * gcodeSectorSize))
          (count - chunk) s

def gcodeSdInit (inquiry : Nat → Inquiry) (s : GcodeState) : Bool × GcodeState :=
  let id := driveProbe inquiry s.cachedId
  (id = .gcode, { s with cachedId := some id })

def gcodeSdRead (drive : GcLoader) (inquiry : Nat → Inquiry) (sector data count : UInt32) (s : GcodeState) :
    Bool × GcodeState :=
  let (ok, s) := gcodeSdInit inquiry s
  if !ok then (false, s)
  else if data &&& 31 ≠ 0 then bounceLoop drive sector data count.toNat 0 s
  else directLoop drive count.toNat sector data count.toNat s

/-! ## What a read comes to -/

/-- As many sectors as fit the address space behind `data`. -/
structure SectorBuffer where
  data : UInt32
  count : UInt32
  fits : 512 * count.toNat ≤ 4294967296

/-- How many sectors one transfer takes at most. -/
def sectorsAtOnce (data : UInt32) : Nat := if data &&& 31 ≠ 0 then 1 else gcodeMaxSectors

/-- `n` sectors from `sector` on at `data`, no more than `atOnce` of them by one transfer: true
    exactly if no transfer failed, and then they are all there; with nothing else written. -/
structure ReadsSectors (drive : GcLoader) (atOnce n : Nat) (sector data : UInt32) (s : GcodeState)
    (r : Bool × GcodeState) : Prop where
  issued : ∃ issued, r.2.issued = s.issued ++ issued ∧ (r.1 = true ↔ ∀ t ∈ issued, t.ok = true) ∧
    ∀ t ∈ issued, t.len ≤ 512 * atOnce
  outside : ∀ a, 512 * n ≤ (a - data).toNat → r.2.mem a = s.mem a
  inside : r.1 = true → ∀ a, (a - data).toNat < 512 * n →
    r.2.mem a = drive.disk (sector + UInt32.ofNat ((a - data).toNat / 512)) ((a - data).toNat % 512)

section
variable {drive : GcLoader} {atOnce : Nat} {sector data : UInt32} {s s₁ : GcodeState} {r : Bool × GcodeState}

theorem ReadsSectors.nothing (drive : GcLoader) (atOnce : Nat) (sector data : UInt32) (s : GcodeState) :
    ReadsSectors drive atOnce 0 sector data s (true, s) where
  issued := ⟨[], (List.append_nil _).symm, ⟨fun _ t ht => (List.not_mem_nil ht).elim, fun _ => rfl⟩,
    fun t ht => (List.not_mem_nil ht).elim⟩
  outside _ _ := rfl
  inside _ a ha := by omega

theorem sector_behind (sector : UInt32) {n d : Nat} (h : 512 * n ≤ d) :
    sector + UInt32.ofNat n + UInt32.ofNat ((d - 512 * n) / 512) = sector + UInt32.ofNat (d / 512) := by
  have hd : d / 512 = n + (d - 512 * n) / 512 := by omega
  rw [hd, UInt32.ofNat_add, UInt32.add_assoc]

theorem ReadsSectors.andThen {n k : Nat} (hfit : 512 * (n + k) ≤ 4294967296)
    (hfirst : ReadsSectors drive atOnce n sector data s (true, s₁))
    (hrest : ReadsSectors drive atOnce k (sector + UInt32.ofNat n) (data + UInt32.ofNat (512 * n)) s₁ r) :
    ReadsSectors drive atOnce (n + k) sector data s r where
  issued := by
    obtain ⟨first, hfirstIssued, hfirstOk, hfirstLen⟩ := hfirst.issued
    obtain ⟨rest, hrestIssued, hrestOk, hrestLen⟩ := hrest.issued
    refine ⟨first ++ rest, ?_, ?_, ?_⟩
    · rw [hrestIssued, hfirstIssued, List.append_assoc]
    · rw [List.forall_mem_append, hrestOk]
      exact ⟨fun h => ⟨hfirstOk.mp rfl, h⟩, fun h => h.2⟩
    · rw [List.forall_mem_append]
      exact ⟨hfirstLen, hrestLen⟩
  outside a ha := by
    have hdist := dist_add a data (512 * n) (by omega)
    rw [if_neg (by omega)] at hdist
    calc r.2.mem a = s₁.mem a := hrest.outside a (by omega)
      _ = s.mem a := hfirst.outside a (by omega)
  inside hok a ha := by
    have hdist := dist_add a data (512 * n) (by omega)
    by_cases hlt : (a - data).toNat < 512 * n
    · rw [if_pos hlt] at hdist
      rw [hrest.outside a (by omega)]
      exact hfirst.inside rfl a hlt
    · rw [if_neg hlt] at hdist
      rw [hrest.inside hok a (by omega), hdist, sector_behind sector (by omega)]
      congr 1
      omega

theorem ReadsSectors.stopped {n k : Nat} (hle : n ≤ k)
    (h : ReadsSectors drive atOnce n sector data s (false, s₁)) :
    ReadsSectors drive atOnce k sector data s (false, s₁) where
  issued := h.issued
  outside a ha := h.outside a (by omega)
  inside hok := by cases hok

/-! ## One transfer -/

theorem gcodeReadAligned_issued (target : DmaTarget) {n : Nat} (hn : n ≤ atOnce) :
    ∃ issued, (gcodeReadAligned drive sector target (512 * n) s).2.issued = s.issued ++ issued ∧
      ((gcodeReadAligned drive sector target (512 * n) s).1 = true ↔ ∀ t ∈ issued, t.ok = true) ∧
      ∀ t ∈ issued, t.len ≤ 512 * atOnce := by
  refine ⟨[⟨sector, 512 * n, (drive.answer s.issued sector (512 * n)).ok⟩], ?_, ?_, ?_⟩
  · cases target <;> rfl
  · rw [List.forall_mem_singleton]
    exact Iff.rfl
  · rw [List.forall_mem_singleton]
    exact Nat.mul_le_mul_left 512 hn

@[simp] theorem gcodeReadAligned_mem (dst : UInt32) (len : Nat) :
    (gcodeReadAligned drive sector (.memory dst) len s).2.mem =
      lay s.mem fun a => (drive.answer s.issued sector len).left (a - dst).toNat := rfl

theorem gcodeReadAligned_memory {n : Nat} (hn : n ≤ atOnce) :
    ReadsSectors drive atOnce n sector data s (gcodeReadAligned drive sector (.memory data) (512 * n) s) where
  issued := gcodeReadAligned_issued (.memory data) hn
  outside a ha := by
    rw [gcodeReadAligned_mem]
    apply lay_of_none
    exact drive.within s.issued sector (512 * n) (a - data).toNat ha
  inside hok a ha := by
    rw [gcodeReadAligned_mem]
    apply lay_of_some
    exact drive.exact s.issued sector (512 * n) hok (a - data).toNat ha

theorem gcodeReadAligned_bounce_failed (hat : 1 ≤ atOnce)
    (hok : (gcodeReadAligned drive sector .bounce 512 s).1 = false) :
    ReadsSectors drive atOnce 1 sector data s (false, (gcodeReadAligned drive sector .bounce 512 s).2) where
  issued := by
    rw [← hok]
    exact gcodeReadAligned_issued .bounce hat
  outside _ _ := rfl
  inside h := by cases h

/-- The sector bounced, and copied out. -/
theorem gcodeReadAligned_bounce_ok (hat : 1 ≤ atOnce)
    (hok : (gcodeReadAligned drive sector .bounce 512 s).1 = true) :
    ReadsSectors drive atOnce 1 sector data s
      (true, (gcodeReadAligned drive sector .bounce 512 s).2.copyBounce data) where
  issued := by
    obtain ⟨issued, heq, hiff, hlen⟩ := @gcodeReadAligned_issued drive atOnce sector s .bounce 1 hat
    exact ⟨issued, heq, ⟨fun _ => hiff.mp hok, fun _ => rfl⟩, hlen⟩
  outside a ha := lay_of_none (spanWrite_eq_none.mpr (Nat.not_lt.mpr ha))
  inside _ a ha := by
    have hbounce : (gcodeReadAligned drive sector .bounce 512 s).2.bounce (a - data).toNat =
        drive.disk (sector + UInt32.ofNat ((a - data).toNat / 512)) ((a - data).toNat % 512) := by
      have harrived := drive.exact s.issued sector 512 hok (a - data).toNat ha
      exact (congrArg (Option.getD · _) harrived)
    rw [← hbounce]
    exact lay_of_some (spanWrite_of_lt ha)

/-! ## The loops -/

theorem bounceLoop_reads {left : Nat} : ∀ {i : Nat} {s : GcodeState}, 512 * left ≤ 4294967296 →
    ReadsSectors drive 1 left (sector + UInt32.ofNat i) (data + UInt32.ofNat (512 * i)) s
      (bounceLoop drive sector data left i s) := by
  induction left with
  | zero =>
    intro i s _
    exact ReadsSectors.nothing ..
  | succ left ih =>
    intro i s hfit
    rw [bounceLoop, gcodeSectorSize, Nat.mul_comm i 512]
    cases hok : (gcodeReadAligned drive (sector + UInt32.ofNat i) .bounce 512 s).1 with
    | false =>
      have hone := @gcodeReadAligned_bounce_failed drive 1 _ (data + UInt32.ofNat (512 * i)) s (Nat.le_refl 1) hok
      simp only [hok, Bool.not_false, if_true]
      exact hone.stopped (by omega)
    | true =>
      have hone := @gcodeReadAligned_bounce_ok drive 1 _ (data + UInt32.ofNat (512 * i)) s (Nat.le_refl 1) hok
      have hnext : sector + UInt32.ofNat (i + 1) = sector + UInt32.ofNat i + UInt32.ofNat 1 := by
        rw [UInt32.ofNat_add, UInt32.add_assoc]
      have hbehind : data + UInt32.ofNat (512 * (i + 1)) =
          data + UInt32.ofNat (512 * i) + UInt32.ofNat (512 * 1) := by
        rw [Nat.mul_add, UInt32.ofNat_add, UInt32.add_assoc]
      simp only [hok, Bool.not_true, Bool.false_eq_true, if_false]
      rw [Nat.add_comm left 1]
      refine hone.andThen (by omega) ?_
      rw [← hnext, ← hbehind]
      exact ih (by omega)

theorem directLoop_reads {fuel : Nat} : ∀ {sector data : UInt32} {count : Nat} {s : GcodeState},
    count ≤ fuel → 512 * count ≤ 4294967296 →
      ReadsSectors drive gcodeMaxSectors count sector data s (directLoop drive fuel sector data count s) := by
  induction fuel with
  | zero =>
    intro sector data count s hfuel _
    obtain rfl := Nat.le_zero.mp hfuel
    exact ReadsSectors.nothing ..
  | succ fuel ih =>
    intro sector data count s hfuel hfit
    rw [directLoop]
    by_cases hzero : count = 0
    · rw [if_pos hzero, hzero]
      exact ReadsSectors.nothing ..
    · rw [if_neg hzero]
      -- what is left after a chunk is what the next round counts from
      obtain ⟨chunk, hchunk⟩ : ∃ chunk, chunk = if gcodeMaxSectors < count then gcodeMaxSectors else count :=
        ⟨_, rfl⟩
      have hbounds : 0 < chunk ∧ chunk ≤ count ∧ chunk ≤ gcodeMaxSectors := by
        unfold gcodeMaxSectors at hchunk ⊢
        split at hchunk <;> omega
      obtain ⟨hpos, hle, hmax⟩ := hbounds
      have hone := @gcodeReadAligned_memory drive gcodeMaxSectors sector data s chunk hmax
      simp only [← hchunk, gcodeSectorSize, Nat.mul_comm chunk 512]
      cases hok : gcodeReadAligned drive sector (.memory data) (512 * chunk) s with
      | mk ok s₁ =>
        rw [hok] at hone
        cases ok with
        | false => exact hone.stopped hle
        | true =>
          have hall : chunk + (count - chunk) = count := Nat.add_sub_cancel' hle
          have hrest := hone.andThen (by omega) (ih (by omega : count - chunk ≤ fuel) (by omega))
          rw [hall] at hrest
          exact hrest

end

/-- It delivers whatever it is asked for. -/
def soundLoader : GcLoader where
  disk sector j := UInt8.ofNat (sector.toNat + j)
  answer _ sector len := ⟨true, false, fun k =>
    if k < len then some (UInt8.ofNat ((sector + UInt32.ofNat (k / 512)).toNat + k % 512)) else none⟩
  within _ _ _ _ h := if_neg (Nat.not_lt.mpr h)
  exact _ _ _ _ _ h := if_pos h

/-- Two sectors, four bytes off. -/
def unalignedBuffer : SectorBuffer := ⟨0x80001004, 2, by decide⟩

end Cubiboot
