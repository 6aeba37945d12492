import Mathlib.Tactic.Common

/-
  Reading sectors of an SD card over EXI (`emu/tsd.c`), every transfer of which succeeds.

  The card shifts a byte back for every byte shifted out, from an endless stream it is free
  to choose; `pos` is how far into it the bus is. A command waits for its response for 17
  bytes and then fails. A sector's data begins with a token, and the loop that waits for that
  has no end of its own: it is given `fuel`, and a read that has not ended in it is nothing.
  `buf` is the caller's buffer by offset.

  What is proved:
    1. `tokenLoop_eq_some`, `tokenLoop_of_token` — the wait ends at the first token.
    2. `sectorLoop_delivered` — a read that ends with true has read every sector.
    3. `sectorLoop_sent` — and has asked for each at its own address.
    4. `sectorLoop_ends_iff` — a read ends exactly if every command accepted is followed by
       a token.
    5. `sd_read_returns_iff` — 2 and 4 together.

  Correspondence (C ↔ Lean):
    `tsd_crc7`, `cmd_buf`  ↔ `tsdCrc7`, `cmdBuf`
    `tsd_send_cmd` (with a response of one byte), its loop ↔ `tsdSendCmd`, `response`, `respLoop`
    `tsd_recv_data`, its loop                              ↔ `tsdRecvData`, `tokenLoop`
    `tsd_sd_read`, its loop                                ↔ `tsdSdRead`, `sectorLoop`
-/

set_option autoImplicit false

namespace Cubiboot

/-! ## Commands -/

/-- One bit of the checksum. -/
def crc7Bit (byte : UInt8) (res : UInt32) (bcnt : Nat) : UInt32 :=
  let res := res <<< 1
  let val := byte.toUInt32 ^^^ ((res >>> UInt32.ofNat bcnt) &&& 0xFF)
  if (0x80 >>> UInt32.ofNat bcnt) &&& val ≠ 0 then
    let res := res ||| 1
    if res &&& 8 = 0 then res ||| 8 else res &&& ~~~8
  else res -- bit 3 is set to what it is

def tsdCrc7 (buffer : List UInt8) : UInt8 :=
  let res := buffer.foldl (fun res byte => (List.range 8).foldl (crc7Bit byte) res) 0
  (res <<< 1).toUInt8

def cmdBuf (cmd : UInt8) (arg : UInt32) : List UInt8 :=
  let frame := [0x40 ||| cmd, (arg >>> 24).toUInt8, (arg >>> 16).toUInt8, (arg >>> 8).toUInt8, arg.toUInt8]
  frame ++ [tsdCrc7 frame ||| 1]

example : cmdBuf 0 0 = [0x40, 0, 0, 0, 0, 0x95] := by decide +kernel

/-- The bus, the commands shifted out so far, and the buffer. -/
structure SdState where
  pos : Nat
  sent : List (List UInt8)
  buf : Nat → UInt8

section
variable (card : Nat → UInt8)

/-- So many more bytes to wait for one whose top bit is clear, and where the bus is then. -/
def respLoop : Nat → Nat → Option UInt8 × Nat
  | 0, pos => (none, pos)
  | left + 1, pos => if card pos &&& 0x80 ≠ 0 then respLoop left (pos + 1) else (some (card pos), pos + 1)

/-- `timeout++ > 16` lets 17 bytes pass. -/
def respPolls : Nat := 17

/-- A hundred bytes are read and the command is written before the card is asked for an answer. -/
def respStart (pos : Nat) : Nat := pos + 100 + 6

/-- What a command begun at `pos` is answered, and where the bus is then. -/
def response (pos : Nat) : Option UInt8 × Nat := respLoop card respPolls (respStart pos)

def tsdSendCmd (cmd : UInt8) (arg : UInt32) (s : SdState) : Option UInt8 × SdState :=
  let (resp, pos) := response card s.pos
  (resp, { s with pos := pos, sent := s.sent ++ [cmdBuf cmd arg] })

/-! ## Sectors -/

/-- Where the bus is behind the token. -/
def tokenLoop : Nat → Nat → Option Nat
  | 0, _ => none
  | fuel + 1, pos => if card pos = 0xFE then some (pos + 1) else tokenLoop fuel (pos + 1)

/-- The data and its checksum, for the `i`th sector of the buffer. -/
def tsdRecvData (fuel i : Nat) (s : SdState) : Option SdState :=
  (tokenLoop card fuel s.pos).map fun pos =>
    { s with
      pos := pos + 512 + 2
      buf := fun a => if 512 * i ≤ a ∧ a < 512 * (i + 1) then card (pos + (a - 512 * i)) else s.buf a }

/-- So many sectors, the `i`th of the call first. -/
def sectorLoop (addressingBlock : Bool) (fuel : Nat) : Nat → Nat → UInt32 → SdState → Option (Bool × SdState)
  | 0, _, _, s => some (true, s)
  | left + 1, i, addr, s =>
    let (resp, s) := tsdSendCmd card 17 addr s
    if resp ≠ some 0 then some (false, s)
    else
      match tsdRecvData card fuel i s with
      | some s => sectorLoop addressingBlock fuel left (i + 1) (addr + if addressingBlock then 1 else 512) s
      | none => none

/-- `selected` is what `tsd_select` returns. -/
def tsdSdRead (addressingBlock : Bool) (fuel : Nat) (selected : Bool) (addr len : UInt32) (s : SdState) :
    Option (Bool × SdState) :=
  if !selected then some (false, s)
  else sectorLoop card addressingBlock fuel len.toNat 0 (if addressingBlock then addr else addr * 512) s

/-! ## What is asked of a read -/

/-- The first token from `pos` on. -/
structure TokenAt (pos p : Nat) : Prop where
  from_le : pos ≤ p
  token : card p = 0xFE
  first : ∀ q, pos ≤ q → q < p → card q ≠ 0xFE

/-- From the `i`th on, so many sectors: each one's command accepted, its token, and its 512
    bytes in the buffer. -/
inductive Delivered (buf : Nat → UInt8) : Nat → Nat → Nat → Prop where
  | done (i pos : Nat) : Delivered buf i 0 pos
  | sector {i left pos answered p : Nat} (accepted : response card pos = (some 0, answered))
      (token : TokenAt card answered p) (data : ∀ j < 512, buf (512 * i + j) = card (p + 1 + j))
      (rest : Delivered buf (i + 1) left (p + 1 + 512 + 2)) : Delivered buf i (left + 1) pos

/-- As long as commands are accepted, each is followed by a token. -/
def AnswersData : Nat → Nat → Prop
  | 0, _ => True
  | left + 1, pos => ∀ answered, response card pos = (some 0, answered) →
      ∃ p, TokenAt card answered p ∧ AnswersData left (p + 1 + 512 + 2)

end

section
variable {card : Nat → UInt8}

theorem TokenAt.unique {pos p q : Nat} (hp : TokenAt card pos p) (hq : TokenAt card pos q) : p = q := by
  obtain hlt | heq | hgt := Nat.lt_trichotomy p q
  · exact absurd hp.token (hq.first p hp.from_le hlt)
  · exact heq
  · exact absurd hq.token (hp.first q hq.from_le hgt)

theorem tokenLoop_eq_some {fuel : Nat} : ∀ {pos next : Nat}, tokenLoop card fuel pos = some next →
    ∃ p, TokenAt card pos p ∧ next = p + 1 := by
  induction fuel with
  | zero =>
    intro pos next h
    cases h
  | succ fuel ih =>
    intro pos next h
    rw [tokenLoop] at h
    split at h
    · rename_i htoken
      refine ⟨pos, ⟨Nat.le_refl pos, htoken, fun q hle hlt => ?_⟩, (Option.some.inj h).symm⟩
      exact absurd hlt (Nat.not_lt.mpr hle)
    · rename_i hnot
      obtain ⟨p, ⟨hle, htoken, hfirst⟩, hnext⟩ := ih h
      refine ⟨p, ⟨Nat.le_of_succ_le hle, htoken, fun q hq hlt => ?_⟩, hnext⟩
      obtain rfl | hbehind := Nat.eq_or_lt_of_le hq
      · exact hnot
      · exact hfirst q hbehind hlt

/-- Enough fuel to get there. -/
theorem tokenLoop_of_token {p fuel : Nat} : ∀ {pos : Nat}, TokenAt card pos p → p < pos + fuel →
    tokenLoop card fuel pos = some (p + 1) := by
  induction fuel with
  | zero =>
    intro pos h hlt
    exact absurd h.from_le (Nat.not_le.mpr hlt)
  | succ fuel ih =>
    intro pos h hlt
    rw [tokenLoop]
    obtain rfl | hbehind := Nat.eq_or_lt_of_le h.from_le
    · rw [if_pos h.token]
    · rw [if_neg (h.first pos (Nat.le_refl pos) hbehind)]
      exact ih ⟨hbehind, h.token, fun q hq => h.first q (Nat.le_of_succ_le hq)⟩ (by omega)

/-! ## A read that ends -/

@[simp] theorem tsdSendCmd_fst (cmd : UInt8) (arg : UInt32) (s : SdState) :
    (tsdSendCmd card cmd arg s).1 = (response card s.pos).1 := rfl

@[simp] theorem tsdSendCmd_snd (cmd : UInt8) (arg : UInt32) (s : SdState) :
    (tsdSendCmd card cmd arg s).2 =
      { s with
        pos := (response card s.pos).2
        sent := s.sent ++ [cmdBuf cmd arg] } := rfl

/-- One round of the loop, the token found at `p`. -/
def SdState.afterSector (card : Nat → UInt8) (i : Nat) (addr : UInt32) (p : Nat) (s : SdState) : SdState where
  pos := p + 1 + 512 + 2
  sent := s.sent ++ [cmdBuf 17 addr]
  buf a := if 512 * i ≤ a ∧ a < 512 * (i + 1) then card (p + 1 + (a - 512 * i)) else s.buf a

variable {addressingBlock : Bool} {fuel left i : Nat} {addr : UInt32} {s s' : SdState}

theorem sectorLoop_refused (h : (response card s.pos).1 ≠ some 0) :
    sectorLoop card addressingBlock fuel (left + 1) i addr s =
      some (false, (tsdSendCmd card 17 addr s).2) := by
  rw [sectorLoop]
  exact if_pos h

theorem sectorLoop_accepted (h : (response card s.pos).1 = some 0) :
    sectorLoop card addressingBlock fuel (left + 1) i addr s =
      match tsdRecvData card fuel i (tsdSendCmd card 17 addr s).2 with
      | some s => sectorLoop card addressingBlock fuel left (i + 1) (addr + if addressingBlock then 1 else 512) s
      | none => none := by
  rw [sectorLoop]
  exact if_neg (not_not_intro h)

theorem sectorLoop_token {p : Nat} (h : (response card s.pos).1 = some 0)
    (hp : tokenLoop card fuel (response card s.pos).2 = some (p + 1)) :
    sectorLoop card addressingBlock fuel (left + 1) i addr s =
      sectorLoop card addressingBlock fuel left (i + 1) (addr + if addressingBlock then 1 else 512)
        (s.afterSector card i addr p) := by
  rw [sectorLoop_accepted h, tsdRecvData, tsdSendCmd_snd, hp]
  rfl

theorem sectorLoop_no_token (h : (response card s.pos).1 = some 0)
    (hp : tokenLoop card fuel (response card s.pos).2 = none) :
    sectorLoop card addressingBlock fuel (left + 1) i addr s = none := by
  rw [sectorLoop_accepted h, tsdRecvData, tsdSendCmd_snd, hp]
  rfl

/-- What a round can do, when the loop ends. -/
theorem sectorLoop_cases {r : Bool × SdState}
    (h : sectorLoop card addressingBlock fuel (left + 1) i addr s = some r) :
    ((response card s.pos).1 ≠ some 0 ∧ r.1 = false) ∨
    ((response card s.pos).1 = some 0 ∧
      ∃ p, TokenAt card (response card s.pos).2 p ∧
        sectorLoop card addressingBlock fuel left (i + 1) (addr + if addressingBlock then 1 else 512)
          (s.afterSector card i addr p) = some r) := by
  by_cases hresp : (response card s.pos).1 = some 0
  · refine Or.inr ⟨hresp, ?_⟩
    cases htoken : tokenLoop card fuel (response card s.pos).2 with
    | none =>
      rw [sectorLoop_no_token hresp htoken] at h
      cases h
    | some next =>
      obtain ⟨p, hat, rfl⟩ := tokenLoop_eq_some htoken
      exact ⟨p, hat, (sectorLoop_token hresp htoken).symm.trans h⟩
  · rw [sectorLoop_refused hresp] at h
    cases h
    exact Or.inl ⟨hresp, rfl⟩

theorem sectorLoop_delivered : ∀ {i : Nat} {addr : UInt32} {s s' : SdState},
    sectorLoop card addressingBlock fuel left i addr s = some (true, s') →
      (∀ a < 512 * i, s'.buf a = s.buf a) ∧ Delivered card s'.buf i left s.pos := by
  induction left with
  | zero =>
    intro i addr s s' h
    cases h
    exact ⟨fun a _ => rfl, Delivered.done i s.pos⟩
  | succ left ih =>
    intro i addr s s' h
    obtain ⟨-, hfalse⟩ | ⟨hresp, p, htoken, hrest⟩ := sectorLoop_cases h
    · cases hfalse
    · obtain ⟨hkept, hdelivered⟩ := ih hrest
      refine ⟨fun a ha => ?_, Delivered.sector (Prod.ext hresp rfl) htoken (fun j hj => ?_) hdelivered⟩
      · rw [hkept a (by omega)]
        exact if_neg (by omega)
      · calc s'.buf (512 * i + j)
            = (s.afterSector card i addr p).buf (512 * i + j) := hkept _ (by omega)
          _ = card (p + 1 + (512 * i + j - 512 * i)) := if_pos (by omega)
          _ = card (p + 1 + j) := by rw [Nat.add_sub_cancel_left]

/-- The addresses asked for, one behind the other. -/
def askedAddrs (addressingBlock : Bool) : Nat → UInt32 → List UInt32
  | 0, _ => []
  | left + 1, addr => addr :: askedAddrs addressingBlock left (addr + if addressingBlock then 1 else 512)

theorem sectorLoop_sent : ∀ {i : Nat} {addr : UInt32} {s s' : SdState},
    sectorLoop card addressingBlock fuel left i addr s = some (true, s') →
      s'.sent = s.sent ++ (askedAddrs addressingBlock left addr).map (cmdBuf 17) := by
  induction left with
  | zero =>
    intro i addr s s' h
    cases h
    exact (List.append_nil _).symm
  | succ left ih =>
    intro i addr s s' h
    obtain ⟨-, hfalse⟩ | ⟨-, p, -, hrest⟩ := sectorLoop_cases h
    · cases hfalse
    · rw [ih hrest, askedAddrs, List.map_cons]
      exact List.append_assoc ..

/-! ## When a read ends -/

/-- The fuel has to last for each wait, so for the longest of them. -/
theorem sectorLoop_ends : ∀ {i : Nat} {addr : UInt32} {s : SdState}, AnswersData card left s.pos →
    ∃ enough, ∀ fuel, enough ≤ fuel →
      (sectorLoop card addressingBlock fuel left i addr s).isSome := by
  induction left with
  | zero =>
    intro i addr s _
    exact ⟨0, fun fuel _ => rfl⟩
  | succ left ih =>
    intro i addr s h
    by_cases hresp : (response card s.pos).1 = some 0
    · obtain ⟨p, htoken, hrest⟩ := h _ (Prod.ext hresp rfl)
      have hrest : AnswersData card left (s.afterSector card i addr p).pos := hrest
      obtain ⟨enough, hends⟩ := @ih (i + 1) (addr + if addressingBlock then 1 else 512) _ hrest
      refine ⟨max enough (p + 1), fun fuel hfuel => ?_⟩
      rw [sectorLoop_token hresp (tokenLoop_of_token htoken (by omega))]
      exact hends fuel (Nat.le_trans (Nat.le_max_left ..) hfuel)
    · refine ⟨0, fun fuel _ => ?_⟩
      rw [sectorLoop_refused hresp]
      rfl

theorem AnswersData.of_ends {r : Bool × SdState} : ∀ {i : Nat} {addr : UInt32} {s : SdState},
    sectorLoop card addressingBlock fuel left i addr s = some r → AnswersData card left s.pos := by
  induction left with
  | zero =>
    intro i addr s _
    exact True.intro
  | succ left ih =>
    intro i addr s h answered hanswered
    obtain ⟨hrefused, -⟩ | ⟨-, p, htoken, hrest⟩ := sectorLoop_cases h
    · exact absurd (congrArg Prod.fst hanswered) hrefused
    · rw [hanswered] at htoken
      exact ⟨p, htoken, ih hrest⟩

theorem sectorLoop_ends_iff :
    (∃ fuel r, sectorLoop card addressingBlock fuel left i addr s = some r) ↔ AnswersData card left s.pos := by
  constructor
  · rintro ⟨fuel, r, h⟩
    exact AnswersData.of_ends h
  · intro h
    obtain ⟨enough, hends⟩ := @sectorLoop_ends card addressingBlock left i addr s h
    exact ⟨enough, Option.isSome_iff_exists.mp (hends enough (Nat.le_refl enough))⟩

end

/-- A read returns, and with true has read every sector, exactly if the card follows up what
    it accepts. -/
theorem sd_read_returns_iff (card : Nat → UInt8) (addressingBlock selected : Bool) (addr len : UInt32)
    (s : SdState) :
    ((∃ fuel r, tsdSdRead card addressingBlock fuel selected addr len s = some r) ∧
      ∀ fuel s', tsdSdRead card addressingBlock fuel selected addr len s = some (true, s') →
        Delivered card s'.buf 0 len.toNat s.pos) ↔
      (selected = true → AnswersData card len.toNat s.pos) := by
  cases selected with
  | false =>
    refine ⟨fun _ hselected => ?_, fun _ => ⟨⟨0, (false, s), rfl⟩, fun fuel s' h => ?_⟩⟩
    · cases hselected
    · cases h
  | true =>
    rw [forall_prop_of_true rfl, ← sectorLoop_ends_iff]
    refine ⟨fun h => h.1, fun h => ⟨h, fun fuel s' hs' => ?_⟩⟩
    exact (sectorLoop_delivered hs').2

/-- It takes the command, and is taken out. -/
def removedCard (pos : Nat) : UInt8 := if pos = 106 then 0 else 0xFF

theorem sd_read_never_returns :
    ¬ ∃ fuel r, tsdSdRead removedCard true fuel true 0 1 ⟨0, [], fun _ => 0⟩ = some r := by
  rintro ⟨fuel, r, h⟩
  have hanswers : AnswersData removedCard 1 0 := AnswersData.of_ends h
  obtain ⟨p, htoken, -⟩ := hanswers 107 (by decide +kernel)
  have hp : removedCard p ≠ 0xFE := by
    unfold removedCard
    split <;> decide
  exact hp htoken.token

end Cubiboot
