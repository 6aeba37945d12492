import Cubiboot.FlippyHandles
import Cubiboot.Lib.Run

/-
  The balance of a FlippyDrive's handles: whether every operation of the menu leaves open
  what was open before it, and closes nothing else.

  An operation opens, asks for the status, and closes the handle the status has told. It
  is even, at each point, in one of three ways: `Even` (between sessions it owes exactly the
  handles that have not been told), `Fresh` (something has just been opened) and `Asked`
  (the status has been asked for: closing what it told makes it even, and where it told of
  no success there is nothing to close). A drive that is taken over with handles open loses
  them, and none of it comes back: `Seized`.

  What is proved:
    1. `leads_fldrvOpen`, `leads_dvdCustomStatus`, `leads_dvdCustomClose`, `leads_flippyEmuMount`
       — what each call does to the account.
    2. `leads_perform` — every operation is even when it returns.
    3. `handles_kept_iff` — in every run the handles that are open between operations are
       those at its start, and no operation has closed another's, exactly when in each
       operation every handle that is taken is told before anything else is opened, and the
       drive is taken over with no handle open.
    4. `probe_leaks` — a probe whose status query fails leaves its handle open.
-/

set_option autoImplicit false

namespace Cubiboot

namespace Flippy

/-! ## The account -/

/-- The drive was taken over with handles open. -/
def Seized (s : Native) : Prop := s.book.stray = true ∧ s.held = true

structure Settled (H : Finset Handle) (s : Native) : Prop where
  owes : Leases.Owes H s.book
  told : s.book.own = ∅ ↔ s.lost = false ∧ s.untold = false
  held : s.held = false
  unmounted : s.mounted = false → s.book.own = ∅

/-- The latest open took a handle that is told next, or took none. -/
inductive JustOpened (s : Native) : Prop where
  | took (fd : Handle) (hlatest : s.latest.result = 0 ∧ s.latest.fd = fd) (huntold : s.untold = true)
      (hown : fd ∈ s.book.own) (hrest : s.book.own.erase fd = ∅ ↔ s.lost = false)
  | none (hlatest : s.latest.result ≠ 0 ∧ ¬ IsHandle s.latest.fd) (huntold : s.untold = false)

def closed (s : Native) : Native := { s with book := giveFd s.book s.status.fd.toUInt32 }

def Even (H : Finset Handle) (s : Native) : Prop := Seized s ∨ Settled H s

/-- Even, with the drive mounted. -/
def Ready (H : Finset Handle) (s : Native) : Prop := Seized s ∨ (Settled H s ∧ s.mounted = true)

def Fresh (H : Finset Handle) (s : Native) : Prop :=
  Seized s ∨ (Settled H s ∧ s.mounted = true ∧ JustOpened s)

def Asked (H : Finset Handle) (s : Native) : Prop :=
  Seized s ∨ (s.mounted = true ∧ (s.status.result ≠ 0 → Settled H s) ∧ Settled H (closed s))

variable {H : Finset Handle} {s : Native}

theorem Ready.even (h : Ready H s) : Even H s := h.imp id And.left

theorem Fresh.ready (h : Fresh H s) : Ready H s := h.imp id fun h => ⟨h.1, h.2.1⟩

theorem Asked.ready (h : Asked H s) (hresult : s.status.result ≠ 0) : Ready H s :=
  h.imp id fun h => ⟨h.2.1 hresult, h.1⟩

theorem giveFd_stray {b : Leases.Book Handle} (h : b.stray = true) (fd : UInt32) : (giveFd b fd).stray = true := by
  rw [giveFd]
  split
  · rw [Leases.Book.give, h, Bool.true_or]
  · exact h

theorem Asked.closed (h : Asked H s) : Ready H (closed s) :=
  h.imp (fun h => ⟨giveFd_stray h.1 _, h.2⟩) fun h => ⟨h.2.2, h.1⟩

/-! ## The calls -/

section
variable (drive : Nat → DriveAnswer)

/-- Nothing in the account depends on how much has been asked. -/
theorem Asked.further (h : Asked H s) (n : Nat) : Asked H { s with asked := n } := by
  refine h.imp id fun ⟨hmounted, h, hclosed⟩ => ⟨hmounted, fun hresult => ?_, ?_⟩
  · have h := h hresult
    exact ⟨h.owes, h.told, h.held, h.unmounted⟩
  · exact ⟨hclosed.owes, hclosed.told, hclosed.held, hclosed.unmounted⟩

theorem leads_transfer {status : FileStatusT} :
    Leads (fun s => Asked H s ∧ status = s.status) (transfer drive) fun _ s => Asked H s ∧ status = s.status :=
  fun _ hs => ⟨hs.1.further _, hs.2⟩

/-- The state after an open. -/
def openedBy (a : DriveAnswer) (s : Native) : Native :=
  match a.takes.filter fun fd => fd ∉ s.book.out with
  | some fd =>
    { s with book := s.book.take fd, latest := ⟨0, a.fsize, fd⟩, lost := s.lost || s.untold, untold := true }
  | none => { s with latest := ⟨a.refusal, a.fsize, a.noHandle⟩, lost := s.lost || s.untold, untold := false }

theorem fldrvOpen_eq (s : Native) : fldrvOpen drive s =
    ((drive s.asked).ret, openedBy (drive s.asked) { s with asked := s.asked + 1 }) := rfl

theorem openedBy_fresh (a : DriveAnswer) (h : Ready H s) : Fresh H (openedBy a s) := by
  rw [openedBy]
  cases hfree : a.takes.filter fun fd => fd ∉ s.book.out with
  | some fd =>
    refine h.imp id fun ⟨h, hmounted⟩ => ?_
    have hout : fd ∉ s.book.out := of_decide_eq_true (Option.mem_filter_iff.mp hfree).2
    have hown : fd ∉ s.book.own := fun hmem => hout (h.owes.own_subset hmem)
    have htold : s.book.own = ∅ ↔ (s.lost || s.untold) = false := by
      rw [h.told, Bool.or_eq_false_iff]
    refine ⟨⟨h.owes.take hout, ?_, h.held, fun hm => absurd (hmounted.symm.trans hm) Bool.noConfusion⟩, hmounted, ?_⟩
    · exact ⟨fun h0 => absurd h0 (Finset.insert_ne_empty fd s.book.own), fun h0 => absurd h0.2 Bool.noConfusion⟩
    · refine .took fd ⟨rfl, rfl⟩ rfl (Finset.mem_insert_self fd s.book.own) ?_
      show (insert fd s.book.own).erase fd = ∅ ↔ _
      rw [Finset.erase_insert hown]
      exact htold
  | none =>
    refine h.imp id fun ⟨h, hmounted⟩ => ⟨⟨h.owes, ?_, h.held, h.unmounted⟩, hmounted, ?_⟩
    · rw [h.told, Bool.or_eq_false_iff]
      exact ⟨fun h0 => ⟨h0, rfl⟩, And.left⟩
    · exact .none ⟨a.refusal.2, a.noHandle.2⟩ rfl

theorem leads_fldrvOpen : Leads (Ready H) (fldrvOpen drive) fun _ => Fresh H := by
  intro s hs
  rw [fldrvOpen_eq]
  apply openedBy_fresh
  exact hs.imp id fun ⟨h, hmounted⟩ => ⟨⟨h.owes, h.told, h.held, h.unmounted⟩, hmounted⟩

/-- The state after a status query. -/
def statusBy (a : DriveAnswer) (s : Native) : Native :=
  if a.ret = 0 then { s with status := s.latest, untold := false }
  else { s with status := ⟨1, 0, 0⟩, lost := s.lost || s.untold, untold := false }

theorem dvdCustomStatus_eq (s : Native) : dvdCustomStatus drive s =
    ((statusBy (drive s.asked) { s with asked := s.asked + 1 }).status,
      statusBy (drive s.asked) { s with asked := s.asked + 1 }) := by
  have hquery : fldrvStatus drive s = ((drive s.asked).ret,
      if (drive s.asked).ret = 0 then { s with asked := s.asked + 1, status := s.latest, untold := false }
      else { s with asked := s.asked + 1, lost := s.lost || s.untold, untold := false }) := rfl
  rw [statusBy]
  by_cases hret : (drive s.asked).ret = 0
  · rw [if_pos hret] at hquery ⊢
    show (dvdCustomStatus drive).run s = _
    rw [dvdCustomStatus, StateT.run_bind, StateT.run, hquery]
    show StateT.run (if (drive s.asked).ret ≠ 0 then _ else _) _ = _
    rw [if_neg (not_not.mpr hret)]
    rfl
  · rw [if_neg hret] at hquery ⊢
    show (dvdCustomStatus drive).run s = _
    rw [dvdCustomStatus, StateT.run_bind, StateT.run, hquery]
    show StateT.run (if (drive s.asked).ret ≠ 0 then _ else _) _ = _
    rw [if_pos hret]
    rfl

/-- Nothing is closed under a number that is no handle's. -/
theorem closed_of_not_handle (h : ¬ IsHandle s.status.fd) : closed s = s := by
  have hfd : s.status.fd.toUInt32.toUInt8 = s.status.fd := UInt8.toUInt8_toUInt32 _
  rw [closed, giveFd, hfd, dif_neg h]

theorem closed_of_handle (fd : Handle) (h : s.status.fd = fd) : closed s = { s with book := s.book.give fd } := by
  have hfd : s.status.fd.toUInt32.toUInt8 = fd := (UInt8.toUInt8_toUInt32 _).trans h
  have hgive : ∀ n : UInt8, n = fd → (if hn : IsHandle n then s.book.give ⟨n, hn⟩ else s.book) = s.book.give fd := by
    rintro _ rfl
    exact dif_pos fd.2
  rw [closed, giveFd, hgive _ hfd]

theorem statusBy_asked (a : DriveAnswer) (h : Fresh H s) : Asked H (statusBy a s) := by
  rw [statusBy]
  by_cases hret : a.ret = 0
  · rw [if_pos hret]
    refine h.imp id fun ⟨h, hmounted, hopened⟩ => ?_
    cases hopened with
    | took fd hlatest huntold hown hrest =>
      refine ⟨hmounted, fun hresult => absurd hlatest.1 hresult, ?_⟩
      rw [closed_of_handle fd hlatest.2]
      exact ⟨h.owes.give_own hown, hrest.trans ⟨fun h0 => ⟨h0, rfl⟩, And.left⟩, h.held,
        fun hm => absurd (hmounted.symm.trans hm) Bool.noConfusion⟩
    | none hlatest huntold =>
      have hsettled : Settled H { s with status := s.latest, untold := false } :=
        ⟨h.owes, huntold ▸ h.told, h.held, h.unmounted⟩
      rw [closed_of_not_handle hlatest.2]
      exact ⟨hmounted, fun _ => hsettled, hsettled⟩
  · rw [if_neg hret]
    refine h.imp id fun ⟨h, hmounted, hopened⟩ => ?_
    have hsettled : Settled H { s with status := ⟨1, 0, 0⟩, lost := s.lost || s.untold, untold := false } := by
      refine ⟨h.owes, ?_, h.held, h.unmounted⟩
      rw [h.told, Bool.or_eq_false_iff]
      exact ⟨fun h0 => ⟨h0, rfl⟩, And.left⟩
    have hzero : ¬ IsHandle 0 := by decide
    rw [closed_of_not_handle hzero]
    exact ⟨hmounted, fun _ => hsettled, hsettled⟩

theorem leads_dvdCustomStatus :
    Leads (Fresh H) (dvdCustomStatus drive) fun status s => Asked H s ∧ status = s.status := by
  intro s hs
  rw [dvdCustomStatus_eq]
  refine ⟨statusBy_asked _ ?_, rfl⟩
  exact hs.imp id fun ⟨h, hmounted, hopened⟩ =>
    ⟨⟨h.owes, h.told, h.held, h.unmounted⟩, hmounted, by
      cases hopened with
      | took fd hlatest huntold hown hrest => exact .took fd hlatest huntold hown hrest
      | none hlatest huntold => exact .none hlatest huntold⟩

theorem leads_dvdCustomClose {status : FileStatusT} :
    Leads (fun s => Asked H s ∧ status = s.status) (dvdCustomClose status.fd) fun _ => Ready H := by
  rintro s ⟨hs, rfl⟩
  exact hs.closed

/-! ## Mounting -/

def toHandle (fd : UInt32) : Option Handle := if h : IsHandle fd.toUInt8 then some ⟨fd.toUInt8, h⟩ else none

theorem closeEach_eq : ∀ (fds : List UInt32) (s : Native),
    closeEach fds s = ((), { s with book := s.book.giveAll (fds.filterMap toHandle) })
  | [], _ => rfl
  | fd :: fds, s => by
    have hgive : giveFd s.book fd = s.book.giveAll (toHandle fd).toList := by
      rw [giveFd, toHandle]
      split <;> rfl
    calc closeEach (fd :: fds) s = closeEach fds { s with book := giveFd s.book fd } := rfl
      _ = ((), { s with book := (giveFd s.book fd).giveAll (fds.filterMap toHandle) }) := closeEach_eq fds _
      _ = ((), { s with book := s.book.giveAll ((fd :: fds).filterMap toHandle) }) := by
        rw [hgive, List.filterMap_cons]
        cases toHandle fd <;> rfl

/-- `fldrv_init` closes every handle there is. -/
theorem initHandles_all (fd : Handle) : fd ∈ initHandles.filterMap toHandle := by
  have hall : ∀ i : Fin 256, IsHandle (UInt8.ofNat i) → ∃ n ∈ initHandles, n.toUInt8 = UInt8.ofNat i := by
    decide +kernel
  have hfd : UInt8.ofNat fd.1.toNat = fd.1 := UInt8.ofNat_toNat
  obtain ⟨n, hn, hnfd⟩ := hall ⟨fd.1.toNat, fd.1.toNat_lt⟩ (by rw [hfd]; exact fd.2)
  refine List.mem_filterMap.mpr ⟨n, hn, ?_⟩
  have hval : n.toUInt8 = fd.1 := hnfd.trans hfd
  rw [toHandle, dif_pos (hval ▸ fd.2)]
  exact congrArg some (Subtype.ext hval)

theorem fldrvInit_eq (s : Native) : fldrvInit s = (true,
    if s.released then s
    else { s with book := s.book.giveAll (initHandles.filterMap toHandle), released := true
                  held := s.held || decide (s.book.out ≠ ∅) }) := by
  have hinit : fldrvInit s = (if s.released then (pure true : StateM Native Bool) else do
      modify fun s => { s with held := s.held || decide (s.book.out ≠ ∅) }
      closeEach initHandles
      modify fun s => { s with released := true }
      pure true) s := rfl
  rw [hinit]
  split
  · rfl
  · show (true, { (closeEach initHandles { s with held := _ }).2 with released := true }) = _
    rw [closeEach_eq]

/-- Taking the drive over, with no handle of one's own: nothing happens, or others' are lost. -/
theorem leads_fldrvInit : Leads (fun s => Even H s ∧ s.mounted = false) fldrvInit fun ok s =>
    ok = true ∧ Even H s ∧ s.mounted = false := by
  rintro s ⟨hs, hmounted⟩
  rw [fldrvInit_eq]
  refine ⟨rfl, ?_⟩
  split
  · exact ⟨hs, hmounted⟩
  · refine ⟨?_, hmounted⟩
    rcases hs with hs | hs
    · exact .inl ⟨Leases.giveAll_stray _ hs.1, by rw [hs.2, Bool.true_or]⟩
    · have hown := hs.unmounted hmounted
      by_cases hout : s.book.out = ∅
      · right
        have hidle : s.book.giveAll (initHandles.filterMap toHandle) = s.book :=
          Leases.giveAll_idle hs.owes.own_subset fun fd _ => hout ▸ Finset.notMem_empty fd
        refine ⟨?_, ?_, ?_, fun _ => ?_⟩
        · rw [hidle]
          exact hs.owes
        · rw [hidle]
          exact hs.told
        · rw [hs.held, hout]
          rfl
        · rw [hidle]
          exact hown
      · left
        obtain ⟨fd, hfd⟩ := Finset.nonempty_iff_ne_empty.mpr hout
        refine ⟨Leases.giveAll_strays hown ⟨fd, initHandles_all fd, hfd⟩, ?_⟩
        show (s.held || decide (s.book.out ≠ ∅)) = true
        rw [decide_eq_true hout, Bool.or_true]

theorem leads_openFlashMounted : Leads (Ready H) (openFlashMounted drive) fun _ => Fresh H := by
  rw [openFlashMounted]
  refine (leads_fldrvOpen drive).bind fun ret => ?_
  apply Leads.ite
  · exact fun _ => leads_pure fun s hs => hs
  · exact fun _ => (leads_fldrvOpen drive).pre fun s hs => hs.ready

theorem leads_updateBoot {P : Native → Prop} {openFlash : StateM Native UInt32}
    (hopen : Leads P openFlash fun _ => Fresh H) : Leads P (updateBoot drive openFlash) fun _ => Ready H := by
  rw [updateBoot]
  refine hopen.bind fun _ => ?_
  refine (leads_dvdCustomStatus drive).bind fun status => ?_
  exact leads_dvdCustomClose.bind fun _ => leads_pure fun s hs => hs

theorem Even.mount (h : Even H s) : Ready H { s with mounted := true } :=
  h.imp id fun h => ⟨⟨h.owes, h.told, h.held, fun hm => absurd hm Bool.noConfusion⟩, rfl⟩

theorem leads_flippyEmuMount : Leads (Even H) (flippyEmuMount drive) fun ok s => ok = true ∧ Ready H s := by
  rw [flippyEmuMount]
  refine leads_get.bind fun t => ?_
  apply Leads.ite
  · intro hmounted
    apply leads_pure
    rintro s ⟨hs, rfl⟩
    exact ⟨rfl, hs.imp id fun hs => ⟨hs, hmounted⟩⟩
  · intro hmounted
    have hinit : Leads (fun s => Even H s ∧ t = s) fldrvInit fun ok s => ok = true ∧ Even H s ∧ s.mounted = false :=
      leads_fldrvInit.pre fun s hs => ⟨hs.1, hs.2 ▸ eq_false_of_ne_true hmounted⟩
    refine hinit.bind fun ok => ?_
    apply Leads.ite
    · exact fun hok => leads_pure fun s hs => absurd hok (by rw [hs.1]; decide)
    · intro _
      have hmount : Leads (fun s => ok = true ∧ Even H s ∧ s.mounted = false)
          (modify fun s : Native => { s with mounted := true }) fun _ => Ready H := fun s hs => hs.2.1.mount
      refine hmount.bind fun _ => ?_
      refine (leads_updateBoot drive (leads_openFlashMounted drive)).bind fun _ => ?_
      exact leads_pure fun s hs => ⟨rfl, hs⟩

/-- What is opened on the drive once it is mounted; mounting does not fail. -/
theorem leads_mounted {openMounted : StateM Native UInt32} (hopen : Leads (Ready H) openMounted fun _ => Fresh H) :
    Leads (Even H) (do
      let ok ← flippyEmuMount drive
      if !ok then pure 1 else openMounted) fun _ => Fresh H := by
  refine (leads_flippyEmuMount drive).bind fun ok => ?_
  apply Leads.ite
  · exact fun hok => leads_pure fun s hs => absurd hok (by rw [hs.1]; decide)
  · exact fun _ => hopen.pre fun s hs => hs.2

theorem leads_dvdCustomOpen (path : Path) (type : UInt8) :
    Leads (Even H) (dvdCustomOpen drive path type) fun _ => Fresh H :=
  leads_mounted drive (leads_fldrvOpen drive)

theorem leads_dvdCustomOpenFlash (path : Path) :
    Leads (Even H) (dvdCustomOpenFlash drive path fileEntryTypeFile) fun _ => Fresh H := by
  rw [dvdCustomOpenFlash]
  apply Leads.ite
  · exact fun h => absurd rfl h
  · exact fun _ => leads_mounted drive (leads_openFlashMounted drive)

theorem leads_emuUpdateBoot : Leads (Even H) (emuUpdateBoot drive) fun _ => Ready H :=
  leads_updateBoot drive (leads_dvdCustomOpenFlash drive _)

/-! ## The programs that open files -/

/-- What is asked while a file is open. -/
def Quiet : FileReq → Prop
  | .read _ _ _ _ | .clear _ _ | .load _ _ => True
  | .openFile _ | .status | .close => False

theorem leads_quiet {α : Type} {p : FileProg α} (hp : p.Asks Quiet) :
    Leads (Asked H) (handled (fileAnswer drive) p) fun _ => Asked H := by
  refine leads_handled (fun q hq => ?_) hp
  cases q with
  | openFile _ => exact hq.elim
  | status => exact hq.elim
  | close => exact hq.elim
  | read _ _ _ _ => exact fun s hs => hs.further _
  | clear _ _ => exact fun s hs => hs
  | load _ _ => exact fun s hs => hs.further _

theorem leads_file_open (path : Path) :
    Leads (Even H) (handled (fileAnswer drive) (Cubiboot.dvdCustomOpen path)) fun _ => Fresh H :=
  leads_dvdCustomOpen drive path fileEntryTypeFile

theorem leads_file_status : Leads (Fresh H) (handled (fileAnswer drive) Cubiboot.dvdCustomStatus) fun status s =>
    Asked H s ∧ (status.result ≠ 0 → Ready H s) := by
  have hstatus : Leads (Fresh H) (fileAnswer drive .status) fun status s =>
      Asked H s ∧ (status.result ≠ 0 → Ready H s) :=
    (leads_dvdCustomStatus drive).bind fun status =>
      leads_pure fun s ⟨hs, hat⟩ => ⟨hs, fun hresult => hs.ready (hat ▸ hresult)⟩
  exact hstatus

theorem leads_file_close : Leads (Asked H) (handled (fileAnswer drive) Cubiboot.dvdCustomClose) fun _ => Ready H :=
  fun _ hs => hs.closed

/-- A file is opened, and what follows goes on from its status, unless the open says no. -/
theorem leads_file_opened {α : Type} {path : Path} {refused : α} {f : FileStatus → FileProg α}
    (hf : ∀ status, Leads (fun s => Asked H s ∧ (status.result ≠ 0 → Ready H s)) (handled (fileAnswer drive) (f status))
      fun _ => Even H) :
    Leads (Even H) (handled (fileAnswer drive) do
      let ret ← Cubiboot.dvdCustomOpen path
      if ret ≠ 0 then pure refused
      else do
        let status ← Cubiboot.dvdCustomStatus
        f status) fun _ => Even H := by
  refine leads_handled_bind (leads_file_open drive path) fun ret => ?_
  apply leads_handled_ite
  · exact fun _ => leads_handled_pure fun s hs => hs.ready.even
  · exact fun _ => leads_handled_bind (leads_file_status drive) hf

theorem leads_gmFileExists (path : Path) :
    Leads (Even H) (handled (fileAnswer drive) (Cubiboot.gmFileExists path)) fun _ => Even H := by
  rw [Cubiboot.gmFileExists]
  refine leads_file_opened drive fun status => ?_
  apply leads_handled_ite
  · exact fun hresult => leads_handled_pure fun s hs => (hs.2 hresult).even
  · intro _
    refine Leads.pre ?_ fun s hs => hs.1
    exact leads_handled_bind (leads_file_close drive) fun _ => leads_handled_pure fun s hs => hs.even

theorem leads_gmDirIsApp (dir : Path) :
    Leads (Even H) (handled (fileAnswer drive) (gmDirIsApp dir)) fun _ => Even H := by
  rw [gmDirIsApp]
  apply leads_handled_ite
  · exact fun _ => leads_handled_pure fun s hs => hs
  · intro _
    refine leads_handled_bind (leads_gmFileExists drive _) fun hasBanner => ?_
    apply leads_handled_ite
    · exact fun _ => leads_handled_pure fun s hs => hs
    · intro _
      apply leads_handled_ite
      · exact fun _ => leads_handled_pure fun s hs => hs
      · intro _
        exact leads_handled_bind (leads_gmFileExists drive _) fun _ => leads_handled_pure fun s hs => hs

/-! What `get_game_info` asks of the open file is quiet, up to its closes. -/

theorem quiet_load (a : Area) (p : UInt32) : (load a p).Asks Quiet := Dialogue.asks_query trivial

theorem quiet_read (dst : Area) (p len offset : UInt32) : (dvdThreadedRead dst p len offset).Asks Quiet :=
  Dialogue.asks_query trivial

theorem quiet_loadU32 (a : Area) (p : UInt32) : (loadU32 a p).Asks Quiet :=
  (quiet_load a p).bind fun _ => (quiet_load a _).bind fun _ => (quiet_load a _).bind fun _ =>
    (quiet_load a _).bind fun _ => trivial

theorem quiet_loadBytes (a : Area) : ∀ (n : Nat) (p : UInt32), (loadBytes a p n).Asks Quiet
  | 0, _ => trivial
  | n + 1, p => (quiet_load a p).bind fun _ => (quiet_loadBytes a n (p + 1)).bind fun _ => trivial

theorem quiet_getBannerOffsetFast (bnrOffsets : List BnrOffset) : (getBannerOffsetFast bnrOffsets).Asks Quiet := by
  refine (quiet_loadU32 _ _).bind fun dolOffset => ?_
  split
  · trivial
  · refine (quiet_loadBytes _ _ _).bind fun header => ?_
    dsimp only
    cases bnrOffsets.find? fun row => row.hash == tinfCrc32 header <;> trivial

theorem quiet_strcasecmpAt : ∀ (s : List UInt8) (p : UInt32), (strcasecmpAt p s).Asks Quiet
  | [], _ => trivial
  | c2 :: rest, p => by
    refine (quiet_load _ _).bind fun c1 => ?_
    split
    · exact quiet_strcasecmpAt rest (p + 1)
    · trivial

theorem quiet_fstSearch (stringTable : UInt32) : ∀ (left : Nat) (i : UInt32), (fstSearch stringTable left i).Asks Quiet
  | 0, _ => trivial
  | left + 1, i => by
    refine (quiet_load _ _).bind fun o0 => (quiet_load _ _).bind fun o1 => (quiet_load _ _).bind fun o2 => ?_
    refine (quiet_load _ _).bind fun filetype => ?_
    split
    · refine (quiet_strcasecmpAt _ _).bind fun found => ?_
      split
      · exact (quiet_loadU32 _ _).bind fun _ => (quiet_loadU32 _ _).bind fun _ => trivial
      · exact quiet_fstSearch stringTable left (i + 1)
    · exact quiet_fstSearch stringTable left (i + 1)

theorem quiet_getBannerOffsetSlow : getBannerOffsetSlow.Asks Quiet := by
  refine (quiet_loadU32 _ _).bind fun fstSize => (quiet_loadU32 _ _).bind fun offset => ?_
  refine (quiet_read _ _ _ _).bind fun _ => (quiet_loadU32 _ _).bind fun totalEntries => ?_
  exact Dialogue.asks_ite (fun _ => trivial) fun _ => quiet_fstSearch _ _ _

theorem quiet_gameInfoAt (magic bnrOffset : UInt32) : (gameInfoAt magic bnrOffset).Asks Quiet := by
  refine (quiet_loadBytes _ _ _).bind fun gameId => (quiet_load _ _).bind fun discNum => ?_
  refine (quiet_load _ _).bind fun discVer => (quiet_loadU32 _ _).bind fun dolOffset => ?_
  refine (quiet_loadU32 _ _).bind fun fstOffset => (quiet_loadU32 _ _).bind fun fstSize => ?_
  exact (quiet_loadU32 _ _).bind fun maxFstSize => trivial

/-- Closed where there is a result. -/
def Probed {α : Type} (H : Finset Handle) (hit : Option α) (s : Native) : Prop :=
  match hit with
  | some _ => Even H s
  | none => Asked H s

theorem leads_probeBanner (bnrOffset : UInt32) :
    Leads (Asked H) (handled (fileAnswer drive) (probeBanner bnrOffset)) (Probed H) := by
  refine leads_handled_bind (leads_quiet drive (quiet_read _ _ _ _)) fun _ => ?_
  refine leads_handled_bind (leads_quiet drive (quiet_loadU32 _ _)) fun magic => ?_
  apply leads_handled_ite
  · intro _
    refine leads_handled_bind (leads_quiet drive (quiet_gameInfoAt _ _)) fun info => ?_
    exact leads_handled_bind (leads_file_close drive) fun _ => leads_handled_pure fun s hs => hs.even
  · exact fun _ => leads_handled_pure fun s hs => hs

/-- The banner is looked for at an offset that is not 0, and the rest goes on from what is found. -/
theorem leads_probeAt (offset : UInt32) {f : Option GameInfo → FileProg GameInfo}
    (hf : ∀ hit, Leads (Probed H hit) (handled (fileAnswer drive) (f hit)) fun _ => Even H) :
    Leads (Asked H) (handled (fileAnswer drive) (if offset ≠ 0 then probeBanner offset >>= f else pure none >>= f))
      fun _ => Even H :=
  leads_handled_ite (fun _ => leads_handled_bind (leads_probeBanner drive offset) hf) fun _ => hf none

theorem leads_getGameInfoSlow :
    Leads (Asked H) (handled (fileAnswer drive) getGameInfoSlow) fun _ => Even H := by
  have hclose : Leads (Asked H) (handled (fileAnswer drive) do Cubiboot.dvdCustomClose; pure GameInfo.invalid)
      fun _ => Even H :=
    leads_handled_bind (leads_file_close drive) fun _ => leads_handled_pure fun s hs => hs.even
  refine leads_handled_bind (leads_quiet drive (quiet_loadU32 _ _)) fun fstSize => ?_
  apply leads_handled_ite
  · exact fun _ => hclose
  · intro _
    refine leads_handled_bind (leads_quiet drive quiet_getBannerOffsetSlow) fun bnrInfo => ?_
    refine leads_probeAt drive bnrInfo.offset fun hit => ?_
    cases hit with
    | some info => exact leads_handled_pure fun s hs => hs
    | none => exact hclose

theorem leads_getGameInfo (bnrOffsets : List BnrOffset) (path : Path) :
    Leads (Even H) (handled (fileAnswer drive) (getGameInfo bnrOffsets path)) fun _ => Even H := by
  rw [getGameInfo]
  refine leads_file_opened drive fun status => ?_
  refine Leads.pre ?_ fun s hs => hs.1
  apply leads_handled_ite
  · intro _
    exact leads_handled_bind (leads_file_close drive) fun _ => leads_handled_pure fun s hs => hs.even
  · intro _
    refine leads_handled_bind (leads_quiet drive (quiet_read _ _ _ _)) fun _ => ?_
    refine leads_handled_bind (leads_quiet drive (quiet_getBannerOffsetFast _)) fun fastBnrOffset => ?_
    refine leads_probeAt drive fastBnrOffset fun hit => ?_
    cases hit with
    | some info => exact leads_handled_pure fun s hs => hs
    | none => exact leads_getGameInfoSlow drive

theorem leads_readBanner (src : BannerSource) :
    Leads (Even H) (handled (fileAnswer drive) (readBanner src)) fun _ => Even H := by
  rw [readBanner]
  apply leads_handled_ite
  · exact fun _ => leads_handled_pure fun s hs => hs
  · intro _
    refine leads_handled_bind (leads_file_open drive _) fun _ => ?_
    refine leads_handled_bind (leads_file_status drive) fun status => ?_
    apply leads_handled_ite
    · exact fun hresult => leads_handled_pure fun s hs => (hs.2 hresult).even
    · intro _
      refine Leads.pre ?_ fun s hs => hs.1
      have hrest : ∀ readLen, Leads (Asked H) (handled (fileAnswer drive) do
          let _ ← dvdThreadedRead .bannerBuffer 0 readLen src.dvdBnrOffset
          Cubiboot.dvdCustomClose
          pure true) fun _ => Even H := fun readLen => by
        refine leads_handled_bind (leads_quiet drive (quiet_read _ _ _ _)) fun _ => ?_
        exact leads_handled_bind (leads_file_close drive) fun _ => leads_handled_pure fun s hs => hs.even
      apply leads_handled_ite
      · exact fun _ => leads_handled_bind (leads_quiet drive (Dialogue.asks_query trivial)) fun _ => hrest _
      · exact fun _ => hrest _

/-! ## The operations -/

theorem leads_opened {α : Type} {path : Path} {type : UInt8} {refused : α} {f : FileStatusT → StateM Native α}
    {Q : α → Native → Prop} (hrefused : ∀ s, Even H s → Q refused s)
    (hf : ∀ status, Leads (fun s => Asked H s ∧ status = s.status) (f status) Q) :
    Leads (Even H) (do
      let ret ← dvdCustomOpen drive path type
      if ret ≠ 0 then pure refused
      else do
        let status ← dvdCustomStatus drive
        f status) Q := by
  refine (leads_dvdCustomOpen drive path type).bind fun ret => ?_
  apply Leads.ite
  · exact fun _ => leads_pure fun s hs => hrefused s hs.ready.even
  · exact fun _ => (leads_dvdCustomStatus drive).bind hf

theorem leads_gmReadLastPlayed (outLen : Nat) : Leads (Even H) (gmReadLastPlayed drive outLen) fun _ => Even H := by
  rw [gmReadLastPlayed]
  refine leads_opened drive (fun s hs => hs) fun status => ?_
  apply Leads.ite
  · exact fun hresult => leads_pure fun s hs => (hs.1.ready (hs.2 ▸ hresult)).even
  · intro _
    refine (leads_transfer drive).bind fun a => ?_
    exact leads_dvdCustomClose.bind fun _ => leads_pure fun s hs => hs.even

theorem leads_probeFolder (folder : Path) : Leads (Even H) (probeFolder drive folder) fun _ => Even H := by
  rw [probeFolder]
  refine leads_opened drive (fun s hs => hs) fun status => ?_
  exact leads_dvdCustomClose.bind fun _ => leads_pure fun s hs => hs.even

theorem leads_gmRecentEntrySlash (path : Path) : Leads (Even H) (gmRecentEntrySlash drive path) fun _ => Even H := by
  rw [gmRecentEntrySlash]
  apply Leads.ite
  · exact fun _ => Leads.bind (leads_gmFileExists drive _) fun _ => leads_pure fun s hs => hs
  · exact fun _ => leads_pure fun s hs => hs

theorem leads_gmLastPlayedFolder (rememberLastGame : Bool) :
    Leads (Even H) (gmLastPlayedFolder drive rememberLastGame) fun _ => Even H := by
  rw [gmLastPlayedFolder]
  apply Leads.ite
  · exact fun _ => leads_pure fun s hs => hs
  · intro _
    refine (leads_gmReadLastPlayed drive maxFileName).bind fun lastPlayed => ?_
    cases lastPlayed with
    | none => exact leads_pure fun s hs => hs
    | some path =>
      refine (leads_gmRecentEntrySlash drive path).bind fun folder => ?_
      cases folder with
      | none => exact leads_pure fun s hs => hs
      | some folder => exact (leads_probeFolder drive _).bind fun _ => leads_pure fun s hs => hs

theorem leads_resolveDefaultFolder (defaultFolder : Path) :
    Leads (Even H) (resolveDefaultFolder drive defaultFolder) fun _ => Even H := by
  rw [resolveDefaultFolder]
  apply Leads.ite
  · exact fun _ => leads_pure fun s hs => hs
  · exact fun _ => Leads.bind (leads_probeFolder drive _) fun _ => leads_pure fun s hs => hs

/-- `gm_list_files` closes its folder when it comes to the end of it. -/
theorem leads_gmListFiles (targetDir : Path) :
    Leads (Even H) (gmListFiles drive targetDir) fun listed s => listed.isSome = true → Even H s := by
  rw [gmListFiles]
  refine leads_opened drive (fun s _ => Bool.noConfusion) fun status => ?_
  apply Leads.ite
  · exact fun _ => leads_pure fun s _ => Bool.noConfusion
  · intro _
    refine (leads_transfer drive).bind fun a => ?_
    cases readdirLoop (a.ret = 0) a.entries 0 with
    | none => exact leads_pure fun s _ => Bool.noConfusion
    | some n => exact leads_dvdCustomClose.bind fun _ => leads_pure fun s hs _ => hs.even

/-- Every operation is even when it returns. -/
theorem leads_perform (op : HandleOp) :
    Leads (Even H) (perform drive op) fun returned s => returned = true → Even H s := by
  have hreturn {α : Type} {m : StateM Native α} (hm : Leads (Even H) m fun _ => Even H) :
      Leads (Even H) (m >>= fun _ => pure true) fun returned s => returned = true → Even H s :=
    hm.bind fun _ => leads_pure fun s hs _ => hs
  cases op with
  | fileExists path => exact hreturn (leads_gmFileExists drive path)
  | dirIsApp dir => exact hreturn (leads_gmDirIsApp drive dir)
  | gameInfo bnrOffsets path => exact hreturn (leads_getGameInfo drive bnrOffsets path)
  | loadBanner src resident =>
    have hload : Leads (Even H) (gmLoadBanner drive src resident) fun _ => Even H :=
      Leads.ite (fun _ => leads_pure fun s hs => hs) fun _ => leads_readBanner drive src
    exact hreturn hload
  | readLastPlayed outLen => exact hreturn (leads_gmReadLastPlayed drive outLen)
  | lastPlayedFolder rememberLastGame => exact hreturn (leads_gmLastPlayedFolder drive rememberLastGame)
  | defaultFolder folder => exact hreturn (leads_resolveDefaultFolder drive folder)
  | listFiles targetDir => exact (leads_gmListFiles drive targetDir).bind fun listed => leads_pure fun s hs => hs
  | updateBoot => exact hreturn ((leads_emuUpdateBoot drive).post fun _ s hs => hs.even)

/-! ## Runs -/

/-- The handles that are open are those of `H`, and none of another's has been closed. -/
def HandlesKept (H : Finset Handle) : Option Native → Prop
  | none => True
  | some s => s.book.out = H ∧ s.book.stray = false

/-- In the operation, if it returns, every handle that was taken was told before anything
else was opened, and the drive was not taken over with a handle open. -/
def HandlesTold : Option Native → HandleOp → Prop
  | none, _ => True
  | some s, op =>
    let (returned, s) := perform drive op s.begin
    returned = true → s.lost = false ∧ s.untold = false ∧ s.held = false

theorem Even.kept_iff (h : Even H s) :
    HandlesKept H (some s) ↔ s.lost = false ∧ s.untold = false ∧ s.held = false := by
  rcases h with ⟨hstray, hheld⟩ | h
  · constructor
    · exact fun hkept => absurd (hstray.symm.trans hkept.2) Bool.noConfusion
    · exact fun htold => absurd (hheld.symm.trans htold.2.2) Bool.noConfusion
  · calc HandlesKept H (some s) ↔ s.book.out = H := and_iff_left h.owes.stray
      _ ↔ s.book.own = ∅ := h.owes.settled_iff
      _ ↔ s.lost = false ∧ s.untold = false := h.told
      _ ↔ s.lost = false ∧ s.untold = false ∧ s.held = false := by rw [h.held, and_iff_left rfl]

theorem begin_even (s : Native) : Even s.book.out s.begin := by
  right
  refine ⟨Leases.owes_start s.book.out, ?_, rfl, fun _ => rfl⟩
  exact ⟨fun _ => ⟨rfl, rfl⟩, fun _ => rfl⟩

/-- One operation. -/
theorem handleStep_kept_iff (t : Option Native) (op : HandleOp) (h : HandlesKept H t) :
    HandlesKept H (handleStep drive t op) ↔ HandlesTold drive t op := by
  cases t with
  | none => exact Iff.rfl
  | some s =>
    have heven : Even H s.begin := h.1 ▸ begin_even s
    have hperform := leads_perform drive op s.begin heven
    rw [handleStep, HandlesTold]
    generalize perform drive op s.begin = result at hperform ⊢
    obtain ⟨returned, t⟩ := result
    cases returned with
    | false => exact ⟨fun _ => Bool.noConfusion, fun _ => trivial⟩
    | true => exact (hperform rfl).kept_iff.trans ⟨fun htold _ => htold, fun htold => htold rfl⟩

/-- In every run the handles that are open between operations are those at its start, and
no operation closes one that is not its own, exactly when the drive tells every handle. -/
theorem handles_kept_iff (s : Native) (ops : List HandleOp) :
    (∀ pre, pre <+: ops → HandlesKept s.book.out (Steps.run (handleStep drive) (some s.begin) pre)) ↔
      Steps.Guarded (handleStep drive) (HandlesTold drive) (some s.begin) ops := by
  apply Steps.always_iff_guarded (fun _ => True) (HandlesKept s.book.out) (fun _ _ _ => trivial)
  · exact fun t op _ ht => handleStep_kept_iff drive t op ht
  · trivial
  · exact ⟨rfl, rfl⟩

end

/-! A probe whose status query fails leaves its handle open. -/

def takesThenFails : Nat → DriveAnswer
  | 0 => ⟨0, some ⟨1, by decide⟩, ⟨1, by decide⟩, ⟨0, by decide⟩, 0, [], [], 0⟩
  | _ => ⟨1, none, ⟨1, by decide⟩, ⟨0, by decide⟩, 0, [], [], 0⟩

def mountedIdle : Native := ⟨.start ∅, ⟨0, 0, 0⟩, 0, true, true, ⟨0, 0, 0⟩, false, false, false⟩

theorem probe_leaks : ¬ ∀ pre, pre <+: [HandleOp.fileExists (cstr "/opening.bnr")] →
    HandlesKept mountedIdle.book.out (Steps.run (handleStep takesThenFails) (some mountedIdle.begin) pre) := by
  intro h
  have hkept : HandlesKept mountedIdle.book.out (Steps.run (handleStep takesThenFails) (some mountedIdle.begin)
    [HandleOp.fileExists (cstr "/opening.bnr")]) := h _ List.prefix_rfl
  have hleft : (⟨1, by decide⟩ : Handle) ∈ mountedIdle.book.out := by
    rw [← hkept.1]
    decide
  exact Finset.notMem_empty _ hleft

end Flippy

end Cubiboot
