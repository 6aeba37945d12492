import Cubiboot.Elf

/-
  Patch application: cubeboot's `main` copies the sections of the patches' ELF image
  over the BIOS in memory, and sets the words of `.reloc` for the revision at hand.

  A section named `.patch.…` is for one revision, which its name ends in; its size may
  come from a symbol of the same name. Every other section is copied if it is
  allocated and has file bytes. The relocations then take each symbol of `.reloc` to
  the address the revision has it at.

  What is proved:
    1. `patchSections_eq`, `relocSymbols_eq` — each loop is a list of writes laid in order.
    2. `copyLen_iff` — a section is copied exactly if it is `Copied`, as the code asks.
    3. `one_revision` — no name is for two revisions.
    4. `patches_applied` — the memory is changed at the copied sections and the words of
       `.reloc`, and nowhere else; `main` goes on exactly if every one of these words
       was given a value.

  `Copied` and `Patched` have what stands between a patch's name and its revision
  as a parameter: the patches' own names have an underscore there, and the code asks
  for nothing (`joined_name_patched`).

  The image is taken as apart from the memory it is applied to.

  Correspondence (C ↔ Lean):
    `Elf32_Shdr`, `patches_elf`           ↔ `ElfShdr`, `ElfImage`
    `bios_item_t`, `bios_table`           ↔ `BiosItem`, `biosTable`
    `ensdwith`                            ↔ `ensdwith`
    `stringBuffer`                        ↔ `stringBufferLen`
    `main` (patch each section)           ↔ `patchSection`
    `main` (copy symbol relocations)      ↔ `relocSymbol`
    `prog_halt`                           ↔ `PatchOutcome.halted`
-/

set_option autoImplicit false

namespace Cubiboot

open Overlay

/-! ## The image and the revisions -/

structure ElfShdr where
  shName : UInt32
  shType : UInt32
  shFlags : UInt32
  shAddr : UInt32
  shOffset : UInt32
  shSize : UInt32
  deriving DecidableEq

/-- `file` is the bytes from the start of the image on. -/
structure ElfImage where
  sections : List ElfShdr
  stringdata : List UInt8
  tab : SymTab
  file : UInt32 → UInt8

def ElfImage.nameOf (img : ElfImage) (s : ElfShdr) : Path := (img.stringdata.drop s.shName.toNat).takeWhile (· ≠ 0)

inductive IplVersion where
  | ntsc10 | ntsc11 | ntsc12_001 | ntsc12_101 | pal10 | pal11 | pal12
  deriving DecidableEq, Repr

structure BiosItem where
  version : IplVersion
  relocName : Path
  patchSuffix : Path
  deriving DecidableEq

def biosTable : List BiosItem :=
  [⟨.ntsc10, cstr "ntsc10", cstr "VER_NTSC_10"⟩,
    ⟨.ntsc11, cstr "ntsc11", cstr "VER_NTSC_11"⟩,
    ⟨.ntsc12_001, cstr "ntsc12_001", cstr "VER_NTSC_12_001"⟩,
    ⟨.ntsc12_101, cstr "ntsc12_101", cstr "VER_NTSC_12_101"⟩,
    ⟨.pal10, cstr "pal10", cstr "VER_PAL_10"⟩,
    ⟨.pal11, cstr "pal11", cstr "VER_PAL_11"⟩,
    ⟨.pal12, cstr "pal12", cstr "VER_PAL_12"⟩]

/-! ## The sections -/

def stringBufferLen : Nat := 255

def patchMark : Path := cstr ".patch."
def funcEnd : Path := cstr "_func"
def sizeEnd : Path := cstr "_size"
def relocSection : Path := cstr ".reloc"

/-- `strncmp(patch_prefix, sh_name, patch_prefix_len) == 0`. -/
def isPatch (name : Path) : Bool := name.take patchMark.length = patchMark

def ensdwith (str suffix : Path) : Bool :=
  suffix.length ≤ str.length ∧ (str.drop (str.length - suffix.length)).take suffix.length = suffix

/-- The symbol with the size of a patch, made in `stringBuffer`; nothing if it does not fit. -/
def sizeSymbol (name : Path) : Option Path :=
  if name.length < stringBufferLen then
    some ((name.take (name.length - 5) ++ sizeEnd).drop patchMark.length)
  else none

structure PatchState where
  mem : DolMem
  relocStart : UInt32
  relocEnd : UInt32

def ElfShdr.addr (s : ElfShdr) : UInt32 := (s.shAddr &&& 0x3FFFFFFF) ||| 0x80000000

def ElfImage.copySection (img : ElfImage) (st : PatchState) (s : ElfShdr) (size : UInt32) : PatchState :=
  { st with
    mem := fun a =>
      if (a - s.addr).toNat < size.toNat then img.file (s.shOffset + (a - s.addr)) else st.mem a }

/-- One section; nothing where a name overruns `stringBuffer`. -/
def patchSection (img : ElfImage) (bios : BiosItem) (st : PatchState) (s : ElfShdr) : Option PatchState :=
  let shName := img.nameOf s
  if (s.shFlags &&& 2 = 0 ∧ ¬ isPatch shName) ∨ s.shAddr = 0 ∨ s.shSize = 0 then some st
  else if s.shType = 8 ∧ ¬ isPatch shName then some st
  else if isPatch shName then
    if ¬ ensdwith shName (bios.patchSuffix ++ funcEnd) then some st
    else
      match sizeSymbol shName with
      | none => none
      | some symname =>
        let shSize := img.tab.getSymbolValue symname
        some (img.copySection st s (if shSize = 0 then s.shSize else shSize))
  else
    let st := if relocSection = shName then { st with relocStart := s.addr, relocEnd := s.addr + s.shSize } else st
    some (img.copySection st s s.shSize)

/-! ## The relocations -/

def relocName (bios : BiosItem) (symname : Path) : Option Path :=
  let name := bios.relocName ++ cstr "_" ++ symname
  if name.length < stringBufferLen then some name else none

/-- The memory, and `failed_patching`. -/
def relocSymbol (tab : SymTab) (bios : BiosItem) (relocStart relocEnd : UInt32) (st : DolMem × Bool) (r : ElfSym) :
    Option (DolMem × Bool) :=
  if r.stName = 0 then some st
  else if relocStart ≤ r.stValue ∧ r.stValue < relocEnd then
    match relocName bios (tab.nameOf r) with
    | none => none
    | some name =>
      let val := tab.getSymbolValue name
      if val ≠ 0 then some (storeU32 st.1 r.stValue val, st.2) else some (st.1, true)
  else some st

inductive PatchOutcome where
  | overrun
  | halted (m : DolMem)
  | patched (m : DolMem)

def applyPatches (img : ElfImage) (bios : BiosItem) (m : DolMem) : PatchOutcome :=
  match img.sections.foldlM (patchSection img bios) ⟨m, 0, 0⟩ with
  | none => .overrun
  | some st =>
    match img.tab.syms.foldlM (relocSymbol img.tab bios st.relocStart st.relocEnd) (st.mem, false) with
    | none => .overrun
    | some (m, failed) => if failed then .halted m else .patched m

/-! ## What it is for -/

/-- `s` is copied, so many bytes of it: it is allocated and has file bytes, or it is a
patch for the revision, `sep` being what stands in front of the revision's suffix. -/
inductive Copied (sep : Path) (img : ElfImage) (bios : BiosItem) (s : ElfShdr) : UInt32 → Prop where
  | loaded (haddr : s.shAddr ≠ 0) (hsize : s.shSize ≠ 0) (halloc : s.shFlags &&& 2 ≠ 0) (hbits : s.shType ≠ 8)
      (hname : ¬ patchMark <+: img.nameOf s) : Copied sep img bios s s.shSize
  | patch (haddr : s.shAddr ≠ 0) (hsize : s.shSize ≠ 0) (n : Path)
      (hname : img.nameOf s = patchMark ++ n ++ sep ++ (bios.patchSuffix ++ funcEnd))
      (hsym : img.tab.getSymbolValue (n ++ sep ++ bios.patchSuffix ++ sizeEnd) = 0) : Copied sep img bios s s.shSize
  | sized (haddr : s.shAddr ≠ 0) (hsize : s.shSize ≠ 0) (n : Path) (size : UInt32)
      (hname : img.nameOf s = patchMark ++ n ++ sep ++ (bios.patchSuffix ++ funcEnd))
      (hsym : img.tab.getSymbolValue (n ++ sep ++ bios.patchSuffix ++ sizeEnd) = size) (hne : size ≠ 0) :
      Copied sep img bios s size

/-- `r` is named and lies in the last `.reloc` that is copied. -/
def InReloc (sep : Path) (img : ElfImage) (bios : BiosItem) (r : ElfSym) : Prop :=
  r.stName ≠ 0 ∧ ∃ pre s post, img.sections = pre ++ s :: post ∧
    (img.nameOf s = relocSection ∧ ∃ len, Copied sep img bios s len) ∧
    (∀ t ∈ post, img.nameOf t = relocSection → ∀ len, ¬ Copied sep img bios t len) ∧
    s.addr ≤ r.stValue ∧ r.stValue < s.addr + s.shSize

/-- What `r` is relocated to. -/
def relocValue (img : ElfImage) (bios : BiosItem) (r : ElfSym) : UInt32 :=
  img.tab.getSymbolValue (bios.relocName ++ cstr "_" ++ img.tab.nameOf r)

def InWord (r : ElfSym) (a : UInt32) : Prop := (a - r.stValue).toNat < 4

instance (r : ElfSym) (a : UInt32) : Decidable (InWord r a) := inferInstanceAs (Decidable (_ < _))

def InSection (s : ElfShdr) (len a : UInt32) : Prop := (a - s.addr).toNat < len.toNat

instance (s : ElfShdr) (len a : UInt32) : Decidable (InSection s len a) := inferInstanceAs (Decidable (_ < _))

/-- The words of `.reloc` hold the revision's values, the sections hold their bytes where
no word is set, and the rest is unchanged; of two that overlap the later one stands. -/
structure Patched (sep : Path) (img : ElfImage) (bios : BiosItem) (m m' : DolMem) : Prop where
  words : ∀ pre r post, img.tab.syms = pre ++ r :: post → InReloc sep img bios r → relocValue img bios r ≠ 0 →
    ∀ a, InWord r a → (∀ q ∈ post, InReloc sep img bios q → relocValue img bios q ≠ 0 → ¬ InWord q a) →
      m' a = beByte (relocValue img bios r) (a - r.stValue).toNat
  sections : ∀ pre s post len, img.sections = pre ++ s :: post → Copied sep img bios s len →
    ∀ a, InSection s len a → (∀ t ∈ post, ∀ l, Copied sep img bios t l → ¬ InSection t l a) →
      (∀ r ∈ img.tab.syms, InReloc sep img bios r → relocValue img bios r ≠ 0 → ¬ InWord r a) →
      m' a = img.file (s.shOffset + (a - s.addr))
  frame : ∀ a, (∀ s ∈ img.sections, ∀ len, Copied sep img bios s len → ¬ InSection s len a) →
    (∀ r ∈ img.tab.syms, InReloc sep img bios r → relocValue img bios r ≠ 0 → ¬ InWord r a) → m' a = m a

/-- Every name fits `stringBuffer`, with its ending or its revision. -/
structure NamesFit (img : ElfImage) (bios : BiosItem) : Prop where
  sections : ∀ s ∈ img.sections, (img.nameOf s).length < stringBufferLen
  symbols : ∀ r ∈ img.tab.syms, (bios.relocName ++ cstr "_" ++ img.tab.nameOf r).length < stringBufferLen

/-! ## Names -/

theorem isPatch_iff (name : Path) : isPatch name ↔ patchMark <+: name := by
  rw [isPatch, decide_eq_true_eq, List.prefix_iff_eq_take, eq_comm]

theorem ensdwith_iff (str suffix : Path) : ensdwith str suffix ↔ suffix <:+ str := by
  rw [ensdwith, decide_eq_true_eq]
  constructor
  · intro ⟨_, htake⟩
    rw [List.take_of_length_le (by rw [List.length_drop]; omega)] at htake
    rw [← htake]
    exact List.drop_suffix _ str
  · intro h
    refine ⟨h.length_le, ?_⟩
    rw [← List.suffix_iff_eq_drop.mp h, List.take_length]

/-- A beginning and an ending that cannot overlap leave a middle. -/
theorem middle_of_ends {p q l : Path} {c : UInt8} (hp : p ++ [c] <+: l) (hq : q <:+ l) (hc : c ∉ q) :
    ∃ n, l = p ++ [c] ++ n ++ q := by
  obtain ⟨t, rfl⟩ := hp
  rcases List.suffix_or_suffix_of_suffix hq (List.suffix_append (p ++ [c]) t) with ⟨n, rfl⟩ | ⟨k, rfl⟩
  · exact ⟨n, by rw [List.append_assoc, List.append_assoc, List.append_assoc]⟩
  · -- the ending would reach back to the last character of the beginning
    obtain ⟨j, hj⟩ := hq
    rw [← List.append_assoc, List.append_cancel_right_eq] at hj
    rcases List.eq_nil_or_concat k with rfl | ⟨k, d, rfl⟩
    · exact ⟨[], by rw [List.append_nil, List.nil_append]⟩
    · rw [List.concat_eq_append, ← List.append_assoc] at hj
      have hd : [d] = [c] := (List.append_inj' hj rfl).2
      apply absurd _ hc
      rw [← List.singleton_inj.mp hd, List.concat_eq_append]
      exact List.mem_append_left t (List.mem_append_right k List.mem_cons_self)

theorem mark_not_in_suffix : ∀ bios ∈ biosTable, (46 : UInt8) ∉ bios.patchSuffix ++ funcEnd := by decide +kernel

/-- A patch's name for a revision has something in front of the revision's suffix. -/
theorem patchName_iff {bios : BiosItem} (hbios : bios ∈ biosTable) (name : Path) :
    (isPatch name ∧ ensdwith name (bios.patchSuffix ++ funcEnd)) ↔
      ∃ n, name = patchMark ++ n ++ [] ++ (bios.patchSuffix ++ funcEnd) := by
  rw [isPatch_iff, ensdwith_iff]
  constructor
  · intro ⟨hp, hq⟩
    obtain ⟨n, hn⟩ := middle_of_ends (p := cstr ".patch") (c := 46) hp hq (mark_not_in_suffix bios hbios)
    exact ⟨n, by rw [List.append_nil]; exact hn⟩
  · rintro ⟨n, rfl⟩
    rw [List.append_nil]
    exact ⟨⟨n ++ _, by rw [List.append_assoc]⟩, List.suffix_append _ _⟩

theorem sizeSymbol_eq {n suffix : Path}
    (hfit : (patchMark ++ n ++ [] ++ (suffix ++ funcEnd)).length < stringBufferLen) :
    sizeSymbol (patchMark ++ n ++ [] ++ (suffix ++ funcEnd)) = some (n ++ [] ++ suffix ++ sizeEnd) := by
  have hfunc : funcEnd.length = 5 := rfl
  have hcut : patchMark ++ n ++ [] ++ (suffix ++ funcEnd) = patchMark ++ (n ++ [] ++ suffix) ++ funcEnd := by
    simp only [List.append_assoc]
  rw [sizeSymbol, if_pos hfit, hcut, List.length_append, hfunc, Nat.add_sub_cancel, List.take_left', List.append_assoc,
    List.drop_left]
  rfl

/-- No name is for two revisions. -/
theorem one_revision : ∀ b ∈ biosTable, ∀ b' ∈ biosTable,
    b.patchSuffix ++ funcEnd <:+ b'.patchSuffix ++ funcEnd → b = b' := by
  decide +kernel

/-! ## Which sections are copied -/

variable {img : ElfImage} {bios : BiosItem}

/-- How much of a section is copied, as the code finds it. -/
def copyLen (img : ElfImage) (bios : BiosItem) (s : ElfShdr) : Option UInt32 :=
  if s.shAddr = 0 ∨ s.shSize = 0 then none
  else if isPatch (img.nameOf s) then
    if ensdwith (img.nameOf s) (bios.patchSuffix ++ funcEnd) then
      (sizeSymbol (img.nameOf s)).map fun symname =>
        if img.tab.getSymbolValue symname = 0 then s.shSize else img.tab.getSymbolValue symname
    else none
  else if s.shFlags &&& 2 ≠ 0 ∧ s.shType ≠ 8 then some s.shSize
  else none

theorem copyLen_of_copied (hbios : bios ∈ biosTable) {s : ElfShdr} (hfit : (img.nameOf s).length < stringBufferLen)
    {len : UInt32} (h : Copied [] img bios s len) : copyLen img bios s = some len := by
  -- a patch for the revision: its size symbol decides
  have hpatch : ∀ n, s.shAddr ≠ 0 → s.shSize ≠ 0 →
      img.nameOf s = patchMark ++ n ++ [] ++ (bios.patchSuffix ++ funcEnd) →
        copyLen img bios s = some (if img.tab.getSymbolValue (n ++ [] ++ bios.patchSuffix ++ sizeEnd) = 0 then s.shSize
          else img.tab.getSymbolValue (n ++ [] ++ bios.patchSuffix ++ sizeEnd)) := by
    intro n haddr hsize hname
    obtain ⟨hp, hq⟩ := (patchName_iff hbios (img.nameOf s)).mpr ⟨n, hname⟩
    rw [copyLen, if_neg (by tauto), if_pos hp, if_pos hq, hname, sizeSymbol_eq (by rw [← hname]; exact hfit)]
    rfl
  cases h with
  | loaded haddr hsize halloc hbits hname =>
    rw [copyLen, if_neg (by tauto), if_neg fun hp => hname ((isPatch_iff _).mp hp), if_pos ⟨halloc, hbits⟩]
  | patch haddr hsize n hname hsym => rw [hpatch n haddr hsize hname, if_pos hsym]
  | sized haddr hsize n size hname hsym hne => rw [hpatch n haddr hsize hname, hsym, if_neg hne]

theorem copied_of_copyLen (hbios : bios ∈ biosTable) {s : ElfShdr} (hfit : (img.nameOf s).length < stringBufferLen)
    {len : UInt32} (h : copyLen img bios s = some len) : Copied [] img bios s len := by
  rw [copyLen] at h
  by_cases h0 : s.shAddr = 0 ∨ s.shSize = 0
  · rw [if_pos h0] at h
    cases h
  · rw [if_neg h0] at h
    obtain ⟨haddr, hsize⟩ := not_or.mp h0
    by_cases hp : isPatch (img.nameOf s)
    · rw [if_pos hp] at h
      by_cases hq : ensdwith (img.nameOf s) (bios.patchSuffix ++ funcEnd)
      · obtain ⟨n, hname⟩ := (patchName_iff hbios (img.nameOf s)).mp ⟨hp, hq⟩
        rw [if_pos hq, hname, sizeSymbol_eq (by rw [← hname]; exact hfit), Option.map_some, Option.some.injEq] at h
        by_cases hsym : img.tab.getSymbolValue (n ++ [] ++ bios.patchSuffix ++ sizeEnd) = 0
        · rw [if_pos hsym] at h
          rw [← h]
          exact .patch haddr hsize n hname hsym
        · rw [if_neg hsym] at h
          exact .sized haddr hsize n len hname h (h ▸ hsym)
      · rw [if_neg hq] at h
        cases h
    · rw [if_neg hp] at h
      split at h
      · rename_i hload
        rw [← Option.some.inj h]
        exact .loaded haddr hsize hload.1 hload.2 fun hname => hp ((isPatch_iff _).mpr hname)
      · cases h

theorem copyLen_iff (hbios : bios ∈ biosTable) {s : ElfShdr} (hfit : (img.nameOf s).length < stringBufferLen)
    {len : UInt32} : copyLen img bios s = some len ↔ Copied [] img bios s len :=
  ⟨copied_of_copyLen hbios hfit, copyLen_of_copied hbios hfit⟩

/-! ## The section loop -/

def ElfImage.sectionWrite (img : ElfImage) (bios : BiosItem) (s : ElfShdr) : Option (UInt32 → Option UInt8) :=
  (copyLen img bios s).map fun len => spanWrite s.addr len.toNat fun k => img.file (s.shOffset + UInt32.ofNat k)

/-- A section that sets the bounds of `.reloc`. -/
def ElfImage.SetsReloc (img : ElfImage) (bios : BiosItem) (s : ElfShdr) : Prop :=
  img.nameOf s = relocSection ∧ (copyLen img bios s).isSome

instance (s : ElfShdr) : Decidable (img.SetsReloc bios s) := inferInstanceAs (Decidable (_ ∧ _))

def ElfImage.relocRange (img : ElfImage) (bios : BiosItem) (range : UInt32 × UInt32) (s : ElfShdr) : UInt32 × UInt32 :=
  if img.SetsReloc bios s then (s.addr, s.addr + s.shSize) else range

theorem copySection_mem (st : PatchState) (s : ElfShdr) (size : UInt32) : (img.copySection st s size).mem =
    lay st.mem (spanWrite s.addr size.toNat fun k => img.file (s.shOffset + UInt32.ofNat k)) := by
  funext a
  rw [lay, spanWrite]
  show (if (a - s.addr).toNat < size.toNat then img.file (s.shOffset + (a - s.addr)) else st.mem a) = _
  by_cases h : (a - s.addr).toNat < size.toNat
  · rw [if_pos h, if_pos h, UInt32.ofNat_toNat]
    rfl
  · rw [if_neg h, if_neg h]
    rfl

/-- A state from its memory and the bounds of `.reloc`. -/
def PatchState.of (m : DolMem) (range : UInt32 × UInt32) : PatchState := ⟨m, range.1, range.2⟩

theorem isPatch_relocSection : isPatch relocSection = false := by decide +kernel

theorem patchSection_eq {s : ElfShdr} (hfit : (img.nameOf s).length < stringBufferLen) (m : DolMem)
    (range : UInt32 × UInt32) : patchSection img bios (.of m range) s =
      some (.of (layAll m (img.sectionWrite bios s).toList) (img.relocRange bios range s)) := by
  have hskip : copyLen img bios s = none →
      PatchState.of (layAll m (img.sectionWrite bios s).toList) (img.relocRange bios range s) = .of m range := by
    intro hnone
    rw [ElfImage.sectionWrite, ElfImage.relocRange, if_neg, hnone]
    · rfl
    · intro ⟨_, hsome⟩
      rw [hnone] at hsome
      cases hsome
  have hcopy : ∀ len, copyLen img bios s = some len →
      PatchState.of (layAll m (img.sectionWrite bios s).toList) (img.relocRange bios range s) =
        img.copySection (.of m (if img.nameOf s = relocSection then (s.addr, s.addr + s.shSize) else range)) s len := by
    intro len hlen
    have hsets : img.SetsReloc bios s ↔ img.nameOf s = relocSection := by
      rw [ElfImage.SetsReloc, hlen]
      exact and_iff_left rfl
    rw [ElfImage.sectionWrite, ElfImage.relocRange, hlen]
    simp only [hsets]
    apply congrArg (fun m' => PatchState.of m' _)
    exact (copySection_mem (.of m _) s len).symm
  rw [patchSection]
  dsimp only
  by_cases h0 : s.shAddr = 0 ∨ s.shSize = 0
  · rw [if_pos (.inr h0), hskip (if_pos h0)]
  · by_cases hp : isPatch (img.nameOf s)
    · -- a patch: copied if it is for the revision
      rw [if_neg (by tauto), if_neg (by tauto), if_pos hp]
      have hlen : copyLen img bios s = _ := (if_neg h0).trans (if_pos hp)
      by_cases hq : ensdwith (img.nameOf s) (bios.patchSuffix ++ funcEnd)
      · have hname : img.nameOf s ≠ relocSection := by
          intro he
          rw [he, isPatch_relocSection] at hp
          cases hp
        have hsym : sizeSymbol (img.nameOf s) = some _ := if_pos hfit
        rw [if_pos hq, hsym, Option.map_some] at hlen
        rw [if_neg (not_not_intro hq), hsym, hcopy _ hlen, if_neg hname]
      · rw [if_neg hq] at hlen
        rw [if_pos hq, hskip hlen]
    · by_cases hload : s.shFlags &&& 2 ≠ 0 ∧ s.shType ≠ 8
      · have hlen : copyLen img bios s = some s.shSize := by rw [copyLen, if_neg h0, if_neg hp, if_pos hload]
        rw [if_neg (by tauto), if_neg (by tauto), if_neg hp, hcopy _ hlen]
        by_cases hname : img.nameOf s = relocSection
        · rw [if_pos hname, if_pos hname.symm]
          rfl
        · rw [if_neg hname, if_neg (Ne.symm hname)]
      · have hlen : copyLen img bios s = none := by rw [copyLen, if_neg h0, if_neg hp, if_neg hload]
        rw [hskip hlen]
        split
        · rfl
        · rw [if_pos (by tauto)]

/-- The section loop lays the copied sections in order, and ends with the bounds of the last `.reloc`. -/
theorem patchSections_eq : ∀ (ss : List ElfShdr) (m : DolMem) (range : UInt32 × UInt32),
    (∀ s ∈ ss, (img.nameOf s).length < stringBufferLen) →
      ss.foldlM (patchSection img bios) (.of m range) =
        some (.of (layAll m (ss.filterMap (img.sectionWrite bios))) (ss.foldl (img.relocRange bios) range))
  | [], _, _, _ => rfl
  | s :: ss, m, range, hfit => by
    rw [List.foldlM_cons, patchSection_eq (hfit s List.mem_cons_self), layAll_filterMap_cons, List.foldl_cons]
    exact patchSections_eq ss _ _ fun t ht => hfit t (List.mem_cons_of_mem s ht)

/-! ## The relocation loop -/

/-- A named symbol between the bounds. -/
def Relocates (range : UInt32 × UInt32) (r : ElfSym) : Prop :=
  r.stName ≠ 0 ∧ range.1 ≤ r.stValue ∧ r.stValue < range.2

instance (range : UInt32 × UInt32) (r : ElfSym) : Decidable (Relocates range r) := inferInstanceAs (Decidable (_ ∧ _))

def ElfImage.relocWrite (img : ElfImage) (bios : BiosItem) (range : UInt32 × UInt32) (r : ElfSym) :
    Option (UInt32 → Option UInt8) :=
  if Relocates range r ∧ relocValue img bios r ≠ 0 then some (spanWrite r.stValue 4 (beByte (relocValue img bios r)))
  else none

/-- A symbol whose value is not found. -/
def ElfImage.broken (img : ElfImage) (bios : BiosItem) (range : UInt32 × UInt32) (r : ElfSym) : Bool :=
  Relocates range r ∧ relocValue img bios r = 0

theorem relocSymbol_eq {r : ElfSym} (hfit : (bios.relocName ++ cstr "_" ++ img.tab.nameOf r).length < stringBufferLen)
    (m : DolMem) (failed : Bool) (range : UInt32 × UInt32) :
    relocSymbol img.tab bios range.1 range.2 (m, failed) r =
      some (layAll m (img.relocWrite bios range r).toList, failed || img.broken bios range r) := by
  have hname : relocName bios (img.tab.nameOf r) = some _ := if_pos hfit
  have hvalue : img.tab.getSymbolValue (bios.relocName ++ cstr "_" ++ img.tab.nameOf r) = relocValue img bios r := rfl
  rw [relocSymbol, ElfImage.relocWrite, ElfImage.broken, hname]
  dsimp only
  rw [hvalue]
  by_cases hr : Relocates range r
  · rw [if_neg hr.1, if_pos hr.2]
    by_cases hval : relocValue img bios r = 0
    · rw [if_neg (not_not_intro hval), if_neg fun h => h.2 hval, decide_eq_true ⟨hr, hval⟩, Bool.or_true]
      rfl
    · rw [if_pos hval, if_pos ⟨hr, hval⟩, decide_eq_false fun h => hval h.2, Bool.or_false, storeU32_lay]
      rfl
  · rw [if_neg (c := Relocates range r ∧ _) fun h => hr h.1, decide_eq_false fun h => hr h.1, Bool.or_false]
    by_cases hn : r.stName = 0
    · rw [if_pos hn]
      rfl
    · rw [if_neg hn, if_neg fun h => hr ⟨hn, h⟩]
      rfl

theorem relocSymbols_eq (range : UInt32 × UInt32) : ∀ (rs : List ElfSym) (m : DolMem) (failed : Bool),
    (∀ r ∈ rs, (bios.relocName ++ cstr "_" ++ img.tab.nameOf r).length < stringBufferLen) →
      rs.foldlM (relocSymbol img.tab bios range.1 range.2) (m, failed) =
        some (layAll m (rs.filterMap (img.relocWrite bios range)), failed || rs.any (img.broken bios range))
  | [], m, failed, _ => by
    rw [List.any_nil, Bool.or_false]
    rfl
  | r :: rs, m, failed, hfit => by
    rw [List.foldlM_cons, relocSymbol_eq (hfit r List.mem_cons_self), layAll_filterMap_cons, List.any_cons,
      ← Bool.or_assoc]
    exact relocSymbols_eq range rs _ _ fun q hq => hfit q (List.mem_cons_of_mem r hq)

/-! ## The bounds of `.reloc` -/

theorem relocRange_none : ∀ (ss : List ElfShdr) (range : UInt32 × UInt32), (∀ s ∈ ss, ¬ img.SetsReloc bios s) →
    ss.foldl (img.relocRange bios) range = range
  | [], _, _ => rfl
  | s :: ss, range, h => by
    have hs : img.relocRange bios range s = range := if_neg (h s List.mem_cons_self)
    rw [List.foldl_cons, hs]
    exact relocRange_none ss range fun t ht => h t (List.mem_cons_of_mem s ht)

theorem relocRange_last {pre post : List ElfShdr} {s : ElfShdr} (hs : img.SetsReloc bios s)
    (hpost : ∀ t ∈ post, ¬ img.SetsReloc bios t) (range : UInt32 × UInt32) :
    (pre ++ s :: post).foldl (img.relocRange bios) range = (s.addr, s.addr + s.shSize) := by
  have hset : ∀ range, img.relocRange bios range s = (s.addr, s.addr + s.shSize) := fun _ => if_pos hs
  rw [List.foldl_append, List.foldl_cons, hset]
  exact relocRange_none post _ hpost

/-- The last of a list with a property, if there is one. -/
theorem exists_last_split {α : Type*} {P : α → Prop} (xs : List α) :
    (∀ x ∈ xs, ¬ P x) ∨ ∃ pre x post, xs = pre ++ x :: post ∧ P x ∧ ∀ y ∈ post, ¬ P y := by
  induction xs with
  | nil => exact .inl fun x hx => absurd hx List.not_mem_nil
  | cons x xs ih =>
    rcases ih with hnone | ⟨pre, y, post, rfl, hy, hpost⟩
    · by_cases hx : P x
      · exact .inr ⟨[], x, xs, rfl, hx, hnone⟩
      · exact .inl (List.forall_mem_cons.mpr ⟨hx, hnone⟩)
    · exact .inr ⟨x :: pre, y, post, rfl, hy, hpost⟩

/-- From any section on the names fit. -/
theorem NamesFit.tail (h : NamesFit img bios) {pre post : List ElfShdr} {s : ElfShdr}
    (hsplit : img.sections = pre ++ s :: post) : ∀ t ∈ s :: post, (img.nameOf t).length < stringBufferLen := by
  intro t ht
  apply h.sections
  rw [hsplit]
  exact List.mem_append_right pre ht

theorem setsReloc_iff (hbios : bios ∈ biosTable) {s : ElfShdr} (hfit : (img.nameOf s).length < stringBufferLen) :
    img.SetsReloc bios s ↔ img.nameOf s = relocSection ∧ ∃ len, Copied [] img bios s len := by
  rw [ElfImage.SetsReloc, Option.isSome_iff_exists]
  simp only [copyLen_iff hbios hfit]

theorem inReloc_iff (hbios : bios ∈ biosTable) (hfit : NamesFit img bios) (r : ElfSym) :
    InReloc [] img bios r ↔ Relocates (img.sections.foldl (img.relocRange bios) (0, 0)) r := by
  constructor
  · intro ⟨hname, pre, s, post, hsplit, hs, hpost, hlow, hhigh⟩
    have hmem := hfit.tail hsplit
    rw [hsplit, relocRange_last ((setsReloc_iff hbios (hmem s List.mem_cons_self)).mpr hs)]
    · exact ⟨hname, hlow, hhigh⟩
    · intro t ht hsets
      obtain ⟨hreloc, len, hlen⟩ := (setsReloc_iff hbios (hmem t (List.mem_cons_of_mem s ht))).mp hsets
      exact hpost t ht hreloc len hlen
  · intro ⟨hname, hlow, hhigh⟩
    rcases exists_last_split (P := img.SetsReloc bios) img.sections with hnone | ⟨pre, s, post, hsplit, hs, hpost⟩
    · -- no `.reloc`: the bounds are both 0
      rw [relocRange_none _ _ hnone] at hhigh
      exact absurd hhigh (Nat.not_lt_zero _)
    · rw [hsplit, relocRange_last hs hpost] at hlow hhigh
      have hmem := hfit.tail hsplit
      refine ⟨hname, pre, s, post, hsplit, (setsReloc_iff hbios (hmem s List.mem_cons_self)).mp hs, ?_, hlow, hhigh⟩
      intro t ht hreloc len hlen
      apply hpost t ht
      exact (setsReloc_iff hbios (hmem t (List.mem_cons_of_mem s ht))).mpr ⟨hreloc, len, hlen⟩

/-! ## What the two loops leave -/

/-- The writes of `.reloc` that do not reach an address. -/
theorem relocWrites_none (hbios : bios ∈ biosTable) (hfit : NamesFit img bios) {a : UInt32} {rs : List ElfSym}
    (h : ∀ q ∈ rs, InReloc [] img bios q → relocValue img bios q ≠ 0 → ¬ InWord q a) :
    ∀ w ∈ rs.filterMap (img.relocWrite bios (img.sections.foldl (img.relocRange bios) (0, 0))), w a = none := by
  intro w hw
  obtain ⟨q, hq, hwrite⟩ := List.mem_filterMap.mp hw
  rw [ElfImage.relocWrite] at hwrite
  split at hwrite
  · rename_i hcond
    rw [← Option.some.inj hwrite, spanWrite_eq_none]
    exact h q hq ((inReloc_iff hbios hfit q).mpr hcond.1) hcond.2
  · cases hwrite

theorem sectionWrites_none (hbios : bios ∈ biosTable) {a : UInt32} {ss : List ElfShdr}
    (hfit : ∀ s ∈ ss, (img.nameOf s).length < stringBufferLen)
    (h : ∀ s ∈ ss, ∀ len, Copied [] img bios s len → ¬ InSection s len a) :
    ∀ w ∈ ss.filterMap (img.sectionWrite bios), w a = none := by
  intro w hw
  obtain ⟨s, hs, hwrite⟩ := List.mem_filterMap.mp hw
  obtain ⟨len, hlen, rfl⟩ := Option.map_eq_some_iff.mp hwrite
  rw [spanWrite_eq_none]
  exact h s hs len ((copyLen_iff hbios (hfit s hs)).mp hlen)

/-- The memory after both loops. -/
def ElfImage.patchedMem (img : ElfImage) (bios : BiosItem) (m : DolMem) : DolMem :=
  layAll (layAll m (img.sections.filterMap (img.sectionWrite bios)))
    (img.tab.syms.filterMap (img.relocWrite bios (img.sections.foldl (img.relocRange bios) (0, 0))))

theorem patchedMem_patched (hbios : bios ∈ biosTable) (hfit : NamesFit img bios) (m : DolMem) :
    Patched [] img bios m (img.patchedMem bios m) := by
  constructor
  · intro pre r post hsplit hr hval a ha hpost
    have hwrite : img.relocWrite bios (img.sections.foldl (img.relocRange bios) (0, 0)) r =
        some (spanWrite r.stValue 4 (beByte (relocValue img bios r))) :=
      if_pos ⟨(inReloc_iff hbios hfit r).mp hr, hval⟩
    rw [ElfImage.patchedMem, hsplit, List.filterMap_append, List.filterMap_cons, hwrite]
    exact layAll_of_last (spanWrite_of_lt ha) (relocWrites_none hbios hfit hpost)
  · intro pre s post len hsplit hs a ha hpost hwords
    have hmem := hfit.tail hsplit
    have hwrite : img.sectionWrite bios s =
        some (spanWrite s.addr len.toNat fun k => img.file (s.shOffset + UInt32.ofNat k)) := by
      rw [ElfImage.sectionWrite, (copyLen_iff hbios (hmem s List.mem_cons_self)).mpr hs]
      rfl
    rw [ElfImage.patchedMem, layAll_of_none _ _ (relocWrites_none hbios hfit hwords), hsplit, List.filterMap_append,
      List.filterMap_cons, hwrite]
    apply layAll_of_last
    · rw [spanWrite_of_lt ha, UInt32.ofNat_toNat]
    · exact sectionWrites_none hbios (fun t ht => hmem t (List.mem_cons_of_mem s ht)) hpost
  · intro a hsections hwords
    calc img.patchedMem bios m a = layAll m (img.sections.filterMap (img.sectionWrite bios)) a :=
          layAll_of_none _ _ (relocWrites_none hbios hfit hwords)
      _ = m a := layAll_of_none _ _ (sectionWrites_none hbios hfit.sections hsections)

theorem applyPatches_eq (hfit : NamesFit img bios) (m : DolMem) :
    applyPatches img bios m =
      if img.tab.syms.any (img.broken bios (img.sections.foldl (img.relocRange bios) (0, 0))) then
        .halted (img.patchedMem bios m)
      else .patched (img.patchedMem bios m) := by
  have hsections : img.sections.foldlM (patchSection img bios) ⟨m, 0, 0⟩ = some _ :=
    patchSections_eq img.sections m (0, 0) hfit.sections
  rw [applyPatches, hsections]
  dsimp only [PatchState.of]
  rw [relocSymbols_eq _ _ _ _ hfit.symbols, Bool.false_or]
  rfl

/-- For every image whose names fit and every revision, `main` changes the memory at the
copied sections and the words of `.reloc` and nowhere else. It goes on exactly if every one
of these words was given a value; and what is for another revision is not copied. -/
theorem patches_applied (hbios : bios ∈ biosTable) (hfit : NamesFit img bios) (m : DolMem) :
    ∃ m', Patched [] img bios m m' ∧
      ((applyPatches img bios m = .patched m' ∧
          ∀ r ∈ img.tab.syms, InReloc [] img bios r → relocValue img bios r ≠ 0) ∨
        (applyPatches img bios m = .halted m' ∧
          ∃ r ∈ img.tab.syms, InReloc [] img bios r ∧ relocValue img bios r = 0)) ∧
      ∀ other ∈ biosTable, other ≠ bios → ∀ s ∈ img.sections, ∀ n,
        img.nameOf s = patchMark ++ n ++ (other.patchSuffix ++ funcEnd) → ∀ len, ¬ Copied [] img bios s len := by
  refine ⟨_, patchedMem_patched hbios hfit m, ?_, ?_⟩
  · rw [applyPatches_eq hfit]
    cases hany : img.tab.syms.any (img.broken bios (img.sections.foldl (img.relocRange bios) (0, 0))) with
    | true =>
      -- some symbol was not found
      obtain ⟨r, hr, hbroken⟩ := List.any_eq_true.mp hany
      obtain ⟨hreloc, hval⟩ := of_decide_eq_true hbroken
      exact .inr ⟨rfl, r, hr, (inReloc_iff hbios hfit r).mpr hreloc, hval⟩
    | false =>
      refine .inl ⟨rfl, fun r hr hreloc hval => ?_⟩
      have hfine := List.any_eq_false.mp hany r hr
      exact hfine (decide_eq_true ⟨(inReloc_iff hbios hfit r).mp hreloc, hval⟩)
  · intro other hother hne s _ n hname len hcopied
    -- a name for this revision would end in both suffixes
    have hends : ∀ n', img.nameOf s = patchMark ++ n' ++ [] ++ (bios.patchSuffix ++ funcEnd) → False := by
      intro n' hname'
      have h1 : bios.patchSuffix ++ funcEnd <:+ img.nameOf s := by
        rw [hname']
        exact List.suffix_append _ _
      have h2 : other.patchSuffix ++ funcEnd <:+ img.nameOf s := by
        rw [hname]
        exact List.suffix_append _ _
      rcases List.suffix_or_suffix_of_suffix h1 h2 with h | h
      · exact hne (one_revision bios hbios other hother h).symm
      · exact hne (one_revision other hother bios hbios h)
    cases hcopied with
    | loaded haddr hsize halloc hbits hfree =>
      apply hfree
      rw [hname, List.append_assoc]
      exact List.prefix_append _ _
    | patch haddr hsize n' hname' => exact hends n' hname'
    | sized haddr hsize n' size hname' => exact hends n' hname'

/-! ## A small image -/

/-- One patch, its name given, and a `.reloc` with one symbol. -/
def smallImage (name : String) : ElfImage where
  sections := [⟨1, 1, 0, 0x01300500, 0x200, 8⟩, ⟨2 + UInt32.ofNat name.length, 1, 2, 0x81700000, 0x300, 4⟩]
  stringdata := 0 :: cstr name ++ 0 :: relocSection ++ [0]
  tab := ⟨[⟨1, 0x81700000⟩, ⟨5, 0x813008c0⟩], 0 :: cstr "run" ++ 0 :: cstr "ntsc10_run" ++ [0]⟩
  file := fun _ => 1

def ntsc10 : BiosItem := ⟨.ntsc10, cstr "ntsc10", cstr "VER_NTSC_10"⟩

theorem patches_applied_small :
    ∃ m', Patched [] (smallImage ".patch.foo_VER_NTSC_10_func") ntsc10 zeroMem m' ∧
      ((applyPatches (smallImage ".patch.foo_VER_NTSC_10_func") ntsc10 zeroMem = .patched m' ∧
          ∀ r ∈ (smallImage ".patch.foo_VER_NTSC_10_func").tab.syms,
            InReloc [] (smallImage ".patch.foo_VER_NTSC_10_func") ntsc10 r →
              relocValue (smallImage ".patch.foo_VER_NTSC_10_func") ntsc10 r ≠ 0) ∨
        (applyPatches (smallImage ".patch.foo_VER_NTSC_10_func") ntsc10 zeroMem = .halted m' ∧
          ∃ r ∈ (smallImage ".patch.foo_VER_NTSC_10_func").tab.syms,
            InReloc [] (smallImage ".patch.foo_VER_NTSC_10_func") ntsc10 r ∧
              relocValue (smallImage ".patch.foo_VER_NTSC_10_func") ntsc10 r = 0)) ∧
      ∀ other ∈ biosTable, other ≠ ntsc10 → ∀ s ∈ (smallImage ".patch.foo_VER_NTSC_10_func").sections, ∀ n,
        (smallImage ".patch.foo_VER_NTSC_10_func").nameOf s = patchMark ++ n ++ (other.patchSuffix ++ funcEnd) →
          ∀ len, ¬ Copied [] (smallImage ".patch.foo_VER_NTSC_10_func") ntsc10 s len :=
  patches_applied (by decide +kernel) ⟨by decide +kernel, by decide +kernel⟩ zeroMem

/-- An allocated section at address 0. -/
def imageAtZero : ElfImage where
  sections := [⟨1, 1, 2, 0, 0x200, 4⟩]
  stringdata := 0 :: cstr ".text" ++ [0]
  tab := ⟨[], []⟩
  file := fun _ => 1

/-- A patch whose name has no underscore in front of the revision is applied all the same;
and an allocated section at address 0 is not copied. -/
theorem joined_name_patched :
    applyPatches imageAtZero ntsc10 zeroMem = .patched zeroMem ∧
    applyPatches (smallImage ".patch.fooVER_NTSC_10_func") ntsc10 zeroMem =
        .patched ((smallImage ".patch.fooVER_NTSC_10_func").patchedMem ntsc10 zeroMem) ∧
      (smallImage ".patch.fooVER_NTSC_10_func").patchedMem ntsc10 zeroMem 0x81300500 = 1 ∧
      ¬ Patched (cstr "_") (smallImage ".patch.fooVER_NTSC_10_func") ntsc10 zeroMem
          ((smallImage ".patch.fooVER_NTSC_10_func").patchedMem ntsc10 zeroMem) := by
  have hbyte : (smallImage ".patch.fooVER_NTSC_10_func").patchedMem ntsc10 zeroMem 0x81300500 = 1 := by
    decide +kernel
  refine ⟨rfl, ?_, hbyte, fun h => ?_⟩
  · rw [applyPatches_eq ⟨by decide +kernel, by decide +kernel⟩, if_neg (by decide +kernel)]
  · -- no name here has an underscore in front of the revision
    have hends : ∀ s ∈ (smallImage ".patch.fooVER_NTSC_10_func").sections, ∀ n,
        (smallImage ".patch.fooVER_NTSC_10_func").nameOf s ≠
          patchMark ++ n ++ cstr "_" ++ (ntsc10.patchSuffix ++ funcEnd) := by
      have hdecide : ∀ s ∈ (smallImage ".patch.fooVER_NTSC_10_func").sections,
          ¬ cstr "_" ++ (ntsc10.patchSuffix ++ funcEnd) <:+ (smallImage ".patch.fooVER_NTSC_10_func").nameOf s := by
        decide +kernel
      intro s hs n hname
      apply hdecide s hs
      rw [hname, List.append_assoc (patchMark ++ n)]
      exact List.suffix_append _ _
    have hloaded : ∀ s ∈ (smallImage ".patch.fooVER_NTSC_10_func").sections,
        ¬ patchMark <+: (smallImage ".patch.fooVER_NTSC_10_func").nameOf s → ¬ InSection s s.shSize 0x81300500 := by
      simp only [← isPatch_iff]
      decide +kernel
    have hframe := h.frame 0x81300500 ?_ ?_
    · rw [hbyte] at hframe
      exact absurd hframe (by decide)
    · intro s hs len hcopied
      cases hcopied with
      | loaded haddr hsize halloc hbits hname => exact hloaded s hs hname
      | patch haddr hsize n hname => exact absurd hname (hends s hs n)
      | sized haddr hsize n size hname => exact absurd hname (hends s hs n)
    · have hwords : ∀ r ∈ (smallImage ".patch.fooVER_NTSC_10_func").tab.syms, ¬ InWord r 0x81300500 := by
        decide +kernel
      exact fun r hr _ _ => hwords r hr

end Cubiboot
