import Mathlib.Data.List.Nodup
import Mathlib.Algebra.Ring.Nat
import Mathlib.Tactic.SplitIfs

/-! The names of the regulatory codes that the target reports (reg.c), and the searches for them in
the tables of countries and of regions. -/
namespace Ath6kl.RegLookup

section Model

def einval : Int := -22

/-- `NULL_REG_CODE`, `ATH6KL_REG_CODE_MASK` and `ATH6KL_COUNTRY_ERD_FLAG`. -/
def nullRegCode : UInt32 := 0xFFFF
def regCodeMask : UInt32 := 0xFFFF
def countryErdFlag : UInt32 := 0x8000

abbrev Name := Char × Char

structure RegCodeToIsoname where
  regCode : UInt16
  isoName : Option Name
  regToCtryIsoName : Option Name
deriving DecidableEq

def plain (code : UInt16) (a b : Char) : RegCodeToIsoname := ⟨code, some (a, b), none⟩

def super (code : UInt16) (a b c d : Char) : RegCodeToIsoname :=
  ⟨code, some (a, b), some (c, d)⟩

def sentinel : RegCodeToIsoname := ⟨0xFFFF, none, none⟩

/-- `ath6kl_country_code_to_iso_name`. -/
def countryCodeToIsoName : List RegCodeToIsoname := [
  plain 8 'A' 'L', plain 12 'D' 'Z', plain 32 'A' 'R', plain 51 'A' 'M',
  plain 533 'A' 'W', plain 36 'A' 'U', plain 5000 'A' '2', plain 40 'A' 'T',
  plain 31 'A' 'Z', plain 48 'B' 'H', plain 50 'B' 'D', plain 52 'B' 'B',
  plain 112 'B' 'Y', plain 56 'B' 'E', plain 84 'B' 'Z', plain 68 'B' 'O',
  plain 70 'B' 'A', plain 76 'B' 'R', plain 96 'B' 'N', plain 100 'B' 'G',
  plain 116 'K' 'H', plain 124 'C' 'A', plain 5001 'C' '2', plain 152 'C' 'L',
  plain 156 'C' 'N', plain 170 'C' 'O', plain 188 'C' 'R', plain 191 'H' 'R',
  plain 196 'C' 'Y', plain 203 'C' 'Z', plain 208 'D' 'K', plain 214 'D' 'O',
  plain 218 'E' 'C', plain 818 'E' 'G', plain 222 'S' 'V', plain 233 'E' 'E',
  plain 234 'F' 'O', plain 246 'F' 'I', plain 250 'F' 'R', plain 255 'F' '2',
  plain 268 'G' 'E', plain 276 'D' 'E', plain 300 'G' 'R', plain 304 'G' 'L',
  plain 308 'G' 'D', plain 316 'G' 'U', plain 320 'G' 'T', plain 332 'H' 'T',
  plain 340 'H' 'N', plain 344 'K' 'H', plain 348 'H' 'U', plain 352 'I' 'S',
  plain 356 'I' 'N', plain 360 'I' 'D', plain 364 'I' 'R', plain 368 'I' 'Q',
  plain 372 'I' 'E', plain 376 'I' 'L', plain 380 'I' 'T', plain 388 'J' 'M',
  plain 392 'J' 'P', plain 393 'J' '2', plain 394 'J' '3', plain 395 'J' '4',
  plain 396 'J' '5', plain 397 'J' '6', plain 399 'J' '7', plain 400 'J' 'O',
  plain 398 'K' 'Z', plain 404 'K' 'E', plain 408 'K' 'P', plain 410 'K' 'R',
  plain 411 'K' '2', plain 412 'K' '3', plain 414 'K' 'W', plain 428 'L' 'V',
  plain 422 'L' 'E', plain 434 'L' 'Y', plain 438 'L' 'I', plain 440 'L' 'T',
  plain 442 'L' 'U', plain 446 'M' 'O', plain 807 'M' 'K', plain 458 'M' 'Y',
  plain 470 'M' 'T', plain 484 'M' 'X', plain 492 'M' 'C', plain 504 'M' 'A',
  plain 524 'N' 'P', plain 528 'N' 'L', plain 530 'A' 'N', plain 554 'N' 'Z',
  plain 558 'N' 'I', plain 578 'N' 'O', plain 512 'O' 'M', plain 586 'P' 'K',
  plain 591 'P' 'A', plain 600 'P' 'Y', plain 604 'P' 'E', plain 608 'P' 'H',
  plain 616 'P' 'L', plain 620 'P' 'T', plain 630 'P' 'R', plain 634 'Q' 'A',
  plain 642 'R' 'O', plain 643 'R' 'U', plain 646 'R' 'W', plain 682 'S' 'A',
  plain 688 'R' 'S', plain 499 'M' 'E', plain 702 'S' 'G', plain 703 'S' 'K',
  plain 705 'S' 'I', plain 710 'Z' 'A', plain 724 'E' 'S', plain 144 'L' 'K',
  plain 752 'S' 'E', plain 756 'C' 'H', plain 760 'S' 'Y', plain 158 'T' 'W',
  plain 764 'T' 'H', plain 780 'T' 'T', plain 788 'T' 'N', plain 792 'T' 'R',
  plain 784 'A' 'E', plain 800 'U' 'G', plain 804 'U' 'A', plain 826 'G' 'B',
  plain 840 'U' 'S', plain 841 'U' '2', plain 842 'P' 'S', plain 858 'U' 'Y',
  plain 860 'U' 'Z', plain 862 'V' 'E', plain 704 'V' 'N', plain 887 'Y' 'E',
  plain 716 'Z' 'W', sentinel]

/-- `ath6kl_region_code_to_name`. -/
def regionCodeToName : List RegCodeToIsoname := [
  plain 0x00 '0' '0', super 0x03 '0' '3' 'A' 'L', plain 0x07 '0' '7', plain 0x08 '0' '8',
  super 0x10 '1' '0' 'C' 'O', super 0x11 '1' '1' 'C' 'R', plain 0x20 '2' '0',
  super 0x21 '2' '1' 'B' 'B', plain 0x22 '2' '2', super 0x3a '3' 'a' 'C' 'A',
  super 0x3b '3' 'b' 'A' 'R', super 0x3f '3' 'f' 'N' 'Z', super 0x12 '1' '2' 'P' 'S',
  plain 0x13 '1' '3', plain 0x16 '1' '6', super 0x14 '1' '4' 'C' 'A',
  super 0x23 '2' '3' 'A' 'U', super 0x37 '3' '7' 'A' 'W', super 0x35 '3' '5' 'J' 'O',
  super 0x36 '3' '6' 'C' 'Y', super 0x30 '3' '0' 'A' 'M', plain 0x38 '3' '8',
  plain 0x39 '3' '9', plain 0x34 '3' '4', super 0x3d '3' 'd' 'R' 'U',
  super 0x3e '3' 'e' 'U' 'A', plain 0x33 '3' '3', plain 0x31 '3' '1',
  super 0x5b '5' 'b' 'B' 'H', super 0x42 '4' '2' 'M' 'A', plain 0x50 '5' '0',
  plain 0x44 '4' '4', super 0x45 '4' '5' 'I' 'D', plain 0x46 '4' '6', plain 0x47 '4' '7',
  super 0x49 '4' '9' 'K' 'R', plain 0x4d '4' 'd', super 0x52 '5' '2' 'C' 'N',
  plain 0x53 '5' '3', super 0x55 '5' '5' 'B' 'Z', plain 0x56 '5' '6', plain 0x58 '5' '8',
  super 0x5c '5' 'c' 'T' 'W', plain 0x5d '5' 'd', super 0x5e '5' 'e' 'K' 'P',
  super 0x5f '5' 'f' 'K' 'R', plain 0x99 '9' '9', plain 0x9a '9' 'a',
  super 0x88 '8' '8' 'J' 'P', plain 0xd4 'd' '4', plain 0xd5 'd' '5', plain 0xd7 'd' '7',
  super 0x60 '6' '0' '0' '0', super 0x61 '6' '1' '0' '0', super 0x62 '6' '2' '0' '0',
  super 0x63 '6' '3' '0' '0', super 0x64 '6' '4' '0' '0', super 0x65 '6' '5' '0' '0',
  super 0x66 '6' '6' '0' '0', super 0x67 '6' '7' '0' '0', super 0x68 '6' '8' '0' '0',
  super 0x69 '6' '9' '0' '0', super 0x6a '6' 'a' '0' '0', super 0x6b '6' 'b' '0' '0',
  super 0x6c '6' 'c' '0' '0', sentinel]

/-- The names in `ath6kl_reg_regdb_country`, without the null pointer behind them. -/
def regRegdbCountry : List Name := [
  ('A', 'L'), ('D', 'Z'), ('A', 'R'), ('A', 'M'), ('A', 'W'), ('A', 'U'), ('A', '2'), ('A', 'T'),
  ('A', 'Z'), ('B', 'H'), ('B', 'D'), ('B', 'B'), ('B', 'Y'), ('B', 'E'), ('B', 'Z'), ('B', 'O'),
  ('B', 'A'), ('B', 'R'), ('B', 'N'), ('B', 'G'), ('K', 'H'), ('C', 'A'), ('C', '2'), ('C', 'L'),
  ('C', 'N'), ('C', 'O'), ('C', 'R'), ('H', 'R'), ('C', 'Y'), ('C', 'Z'), ('D', 'K'), ('D', 'O'),
  ('E', 'C'), ('E', 'G'), ('S', 'V'), ('E', 'E'), ('F', 'I'), ('F', 'R'), ('F', '2'), ('G', 'E'),
  ('D', 'E'), ('G', 'R'), ('G', 'L'), ('G', 'D'), ('G', 'U'), ('G', 'T'), ('H', 'T'), ('H', 'N'),
  ('H', 'K'), ('H', 'U'), ('I', 'S'), ('I', 'N'), ('I', 'D'), ('I', 'R'), ('I', 'E'), ('I', 'L'),
  ('I', 'T'), ('J', 'M'), ('J', 'P'), ('J', 'O'), ('K', 'Z'), ('K', 'E'), ('K', 'P'), ('K', 'R'),
  ('K', '2'), ('K', '3'), ('K', 'W'), ('L', 'V'), ('L', 'B'), ('L', 'I'), ('L', 'T'), ('L', 'U'),
  ('M', 'O'), ('M', 'K'), ('M', 'W'), ('M', 'Y'), ('M', 'T'), ('M', 'X'), ('M', 'C'), ('M', 'A'),
  ('N', 'P'), ('N', 'Z'), ('N', 'L'), ('A', 'N'), ('N', 'O'), ('O', 'M'), ('P', 'K'), ('P', 'A'),
  ('P', 'E'), ('P', 'H'), ('P', 'L'), ('P', 'T'), ('P', 'R'), ('Q', 'A'), ('R', 'O'), ('R', 'U'),
  ('R', 'W'), ('S', 'A'), ('M', 'E'), ('R', 'S'), ('S', 'G'), ('S', 'K'), ('S', 'I'), ('Z', 'A'),
  ('E', 'S'), ('L', 'K'), ('S', 'E'), ('C', 'H'), ('S', 'Y'), ('T', 'W'), ('T', 'H'), ('T', 'T'),
  ('T', 'N'), ('T', 'R'), ('U', 'G'), ('U', 'A'), ('A', 'E'), ('G', 'B'), ('U', 'S'), ('U', '2'),
  ('P', 'S'), ('U', 'Y'), ('U', 'Z'), ('V', 'E'), ('V', 'N'), ('Y', 'E'), ('Z', 'W')]

/-- The names in `ath6kl_reg_regdb_region`, without the null pointer behind them. -/
def regRegdbRegion : List Name := [
  ('0', '0'), ('0', '3'), ('0', '7'), ('0', '8'), ('2', '0'), ('2', '1'), ('2', '2'), ('3', 'a'),
  ('3', 'b'), ('3', 'f'), ('1', '2'), ('1', '3'), ('1', '6'), ('1', '4'), ('2', '3'), ('3', '7'),
  ('3', '5'), ('3', '6'), ('3', '0'), ('3', '9'), ('3', '4'), ('3', 'd'), ('3', 'e'), ('3', '1'),
  ('1', '1'), ('1', '0'), ('5', '2'), ('4', '5'), ('4', 'd'), ('4', '7'), ('5', '0'), ('4', '2'),
  ('5', '8'), ('5', 'b'), ('5', 'c'), ('5', 'd'), ('5', 'e'), ('5', 'f'), ('5', '1'), ('5', '5'),
  ('5', '6'), ('4', '9'), ('9', '9'), ('9', 'a'), ('8', '8'), ('d', '4'), ('d', '5'), ('d', '7'),
  ('8', '7'), ('6', '0'), ('6', '1'), ('6', '2'), ('6', '3'), ('6', '4'), ('6', '5'), ('6', '6'),
  ('6', '7'), ('6', '8'), ('6', '9'), ('6', 'a'), ('6', 'b'), ('6', 'c')]

/-- `ath6kl_regd_NA`. -/
def regdNA : Name := ('N', 'A')

/-- The loop of `_reg_find_iso_name` over what is left of a table. It ends only where it finds the
code: `none` is a walk that has left the table behind. -/
def searchName (regCode : UInt16) (reg2Ctry : Bool) : List RegCodeToIsoname → Option (Option Name)
  | [] => none
  | name::rest =>
    if name.regCode = regCode ∧ name.isoName.isSome then
      some (if reg2Ctry then name.regToCtryIsoName else name.isoName)
    else searchName regCode reg2Ctry rest

def tableOf (isCountry : Bool) : List RegCodeToIsoname :=
  if isCountry then countryCodeToIsoName else regionCodeToName

/-- `_reg_find_iso_name`: the name, or a null pointer. -/
def regFindIsoName (regCode : UInt16) (isCountry reg2Ctry : Bool) : Option (Option Name) :=
  let reg2Ctry := if isCountry then false else reg2Ctry
  searchName regCode reg2Ctry (tableOf isCountry)

/-- The loop of `_reg_find_regd`, which stops at the null pointer. -/
def searchRegd (alpha2 : Name) : List Name → Option Name
  | [] => none
  | regd::rest =>
    if regd.1 = alpha2.1 ∧ regd.2 = alpha2.2 then some regd else searchRegd alpha2 rest

def regdbOf (isCountry : Bool) : List Name :=
  if isCountry then regRegdbCountry else regRegdbRegion

/-- `_reg_find_regd`: a domain by its name, or a null pointer. -/
def regFindRegd (code : UInt16) (isCountry : Bool) : Option (Option Name) :=
  (regFindIsoName code isCountry false).map fun alpha2 =>
    alpha2.bind fun alpha2 => searchRegd alpha2 (regdbOf isCountry)

/-- `ath6kl_reg_get_regd`. -/
def regGetRegd (regCode : UInt32) : Option Name :=
  let code := (regCode &&& regCodeMask).toUInt16
  let codeType := (regCode >>> 16).toUInt16
  let isCountry := decide (codeType &&& countryErdFlag.toUInt16 ≠ 0)
  (regFindRegd code isCountry).map fun regd => regd.getD regdNA

/-- `ath6kl_reg_cfg80211_update`: the name that goes to cfg80211, if there is one. -/
def regCfg80211Update (regCode : UInt32) : Option (Option Name) :=
  if (regCode >>> 16) &&& countryErdFlag ≠ 0 then regFindIsoName regCode.toUInt16 true false
  else regFindIsoName regCode.toUInt16 false true

structure Flags where
  internalRegdb : Bool
  cfg80211Regdb : Bool

/-- What a notification returns, the domain that it stores, and the name it gives to cfg80211. -/
structure Notified where
  ret : Int := 0
  currentRegd : Option Name := none
  hint : Option Name := none

/-- `ath6kl_reg_target_notify`. -/
def regTargetNotify (flags : Flags) (regCode : UInt32) : Option Notified :=
  if regCode &&& regCodeMask = nullRegCode then some { ret := einval }
  else if flags.internalRegdb then
    (regGetRegd regCode).map fun regd => { currentRegd := some regd }
  else if flags.cfg80211Regdb then
    (regCfg80211Update regCode).map fun isoName => { hint := isoName }
  else if (regCode >>> 16) &&& countryErdFlag ≠ 0 then
    (regFindIsoName regCode.toUInt16 true false).map fun isoName => { hint := isoName }
  else
    (regFindIsoName regCode.toUInt16 false true).map fun isoName => { hint := isoName }

end Model

section Search
variable {regCode : UInt16} {reg2Ctry : Bool} {table : List RegCodeToIsoname}

/-- An entry that the search can stop at. -/
def Names (regCode : UInt16) (name : RegCodeToIsoname) : Prop :=
  name.regCode = regCode ∧ name.isoName.isSome

instance (regCode : UInt16) (name : RegCodeToIsoname) : Decidable (Names regCode name) :=
  inferInstanceAs (Decidable (_ ∧ _))

def RegCodeToIsoname.nameFor (name : RegCodeToIsoname) (reg2Ctry : Bool) : Option Name :=
  if reg2Ctry then name.regToCtryIsoName else name.isoName

theorem searchName_of_mem (hnodup : (table.map RegCodeToIsoname.regCode).Nodup)
    {name : RegCodeToIsoname} (hmem : name∈table) (h : Names regCode name) :
    searchName regCode reg2Ctry table = some (name.nameFor reg2Ctry) := by
  induction table with
  | nil => exact absurd hmem List.not_mem_nil
  | cons first rest ih =>
    obtain ⟨hfirst, hrest⟩ := List.nodup_cons.mp hnodup
    rw [searchName]
    obtain rfl | hmem' := List.mem_cons.mp hmem
    · have hstop : name.regCode = regCode ∧ name.isoName.isSome := h
      rw [if_pos hstop]
      rfl
    · have hne : first.regCode ≠ regCode := by
        intro heq
        exact hfirst (heq ▸ h.1 ▸ List.mem_map_of_mem hmem')
      rw [if_neg fun hand => hne hand.1]
      exact ih hrest hmem'

theorem searchName_past (h : ∀ name∈table, ¬Names regCode name) :
    searchName regCode reg2Ctry table = none := by
  induction table with
  | nil => rfl
  | cons first rest ih =>
    obtain ⟨hfirst, hrest⟩ := List.forall_mem_cons.mp h
    have hgo : ¬(first.regCode = regCode ∧ first.isoName.isSome) := hfirst
    rw [searchName, if_neg hgo, ih hrest]

theorem searchRegd_eq (alpha2 : Name) (regdb : List Name) :
    searchRegd alpha2 regdb = if alpha2∈regdb then some alpha2 else none := by
  induction regdb with
  | nil => rfl
  | cons regd rest ih =>
    have hiff : (regd.1 = alpha2.1 ∧ regd.2 = alpha2.2) ↔ regd = alpha2 := Prod.ext_iff.symm
    rw [searchRegd, ih]
    by_cases heq : regd = alpha2
    · rw [if_pos (hiff.mpr heq), if_pos (by simp [heq]), heq]
    · rw [if_neg fun hand => heq (hiff.mp hand)]
      simp [Ne.symm heq]

end Search

section Lookups

/-- The code of a report, and whether it is that of a country. -/
def maskedCode (regCode : UInt32) : UInt16 := (regCode &&& regCodeMask).toUInt16
def ofCountry (regCode : UInt32) : Bool := decide ((regCode >>> 16) &&& countryErdFlag ≠ 0)

def InTable (isCountry : Bool) (code : UInt16) : Prop :=
  ∃ name∈tableOf isCountry, Names code name

instance (isCountry : Bool) (code : UInt16) : Decidable (InTable isCountry code) :=
  inferInstanceAs (Decidable (∃ name∈tableOf isCountry, Names code name))

theorem nodup_tableOf (isCountry : Bool) :
    ((tableOf isCountry).map RegCodeToIsoname.regCode).Nodup := by
  refine List.Nodup.of_map UInt16.toNat ?_
  cases isCountry <;> decide +kernel

/-- A search ends inside its table, and its result is what the entry of the code makes of it, or
what comes of no entry. -/
structure Right {α : Type*} (isCountry : Bool) (code : UInt16)
    (of : Option RegCodeToIsoname → α) (result : Option α) : Prop where
  inside : result ≠ none
  found : ∀ name∈tableOf isCountry, Names code name → result = some (of (some name))
  absent : ¬InTable isCountry code → result = some (of none)

theorem right_map_iff {α : Type*} {isCountry reg2Ctry : Bool} {code : UInt16}
    {of : Option RegCodeToIsoname → α} {g : Option Name → α}
    (h : ∀ name : RegCodeToIsoname, g (name.nameFor reg2Ctry) = of (some name)) :
    Right isCountry code of ((searchName code reg2Ctry (tableOf isCountry)).map g) ↔
      InTable isCountry code := by
  constructor
  · intro hright
    by_contra habsent
    have hpast : searchName code reg2Ctry (tableOf isCountry) = none :=
      searchName_past fun name hmem hnames => habsent ⟨name, hmem, hnames⟩
    exact hright.inside (by rw [hpast]; rfl)
  · rintro ⟨name, hmem, hnames⟩
    have hfound (name : RegCodeToIsoname) (hmem : name∈tableOf isCountry)
        (hnames : Names code name) :
        (searchName code reg2Ctry (tableOf isCountry)).map g = some (of (some name)) := by
      rw [searchName_of_mem (nodup_tableOf isCountry) hmem hnames, Option.map_some, h]
    refine ⟨fun hnone => ?_, hfound, fun habsent => absurd ⟨name, hmem, hnames⟩ habsent⟩
    rw [hfound name hmem hnames] at hnone
    cases hnone

/-- The domain of an entry: the one with its name, or the default. -/
def domainOf (isCountry : Bool) (name : Option RegCodeToIsoname) : Name :=
  ((name.bind RegCodeToIsoname.isoName).bind fun alpha2 =>
    if alpha2∈regdbOf isCountry then some alpha2 else none).getD regdNA

/-- The name of an entry for cfg80211: of a region, that of a country. -/
def hintOf (isCountry : Bool) (name : Option RegCodeToIsoname) : Option Name :=
  name.bind fun name => name.nameFor (!isCountry)

def notifiedOf (flags : Flags) (isCountry : Bool) (name : Option RegCodeToIsoname) : Notified :=
  if flags.internalRegdb then { currentRegd := some (domainOf isCountry name) }
  else { hint := hintOf isCountry name }

/-- The three callers look up the masked code in the table of its kind. -/
structure LookupsRight (regCode : UInt32) : Prop where
  getRegd : Right (ofCountry regCode) (maskedCode regCode) (domainOf (ofCountry regCode))
    (regGetRegd regCode)
  cfg80211 : Right (ofCountry regCode) (maskedCode regCode) (hintOf (ofCountry regCode))
    (regCfg80211Update regCode)
  notify : ∀ flags, Right (ofCountry regCode) (maskedCode regCode)
    (notifiedOf flags (ofCountry regCode)) (regTargetNotify flags regCode)

variable (regCode : UInt32)

theorem toUInt16_eq_maskedCode : regCode.toUInt16 = maskedCode regCode := by
  apply UInt16.toNat_inj.mp
  simp only [maskedCode, regCodeMask, UInt32.toNat_toUInt16, UInt32.toNat_and, UInt32.reduceToNat]
  rw [show (65535 : Nat) = 2^16-1 from rfl, Nat.and_two_pow_sub_one_eq_mod, Nat.mod_mod]

theorem codeType_eq_ofCountry :
    decide ((regCode >>> 16).toUInt16 &&& countryErdFlag.toUInt16 ≠ 0) = ofCountry regCode := by
  have hlt := regCode.toNat_lt
  have hhigh : (regCode >>> 16).toNat = regCode.toNat/2^16 := by
    simp [UInt32.toNat_shiftRight, Nat.shiftRight_eq_div_pow]
  have hlow : ((regCode >>> 16).toUInt16).toNat = regCode.toNat/2^16 := by
    rw [UInt32.toNat_toUInt16, hhigh]
    omega
  refine decide_eq_decide.mpr (not_congr ?_)
  rw [← UInt16.toNat_inj, ← UInt32.toNat_inj, UInt16.toNat_and, UInt32.toNat_and, hhigh, hlow]
  rfl

theorem regGetRegd_eq : regGetRegd regCode =
    (searchName (maskedCode regCode) false (tableOf (ofCountry regCode))).map fun alpha2 =>
      (alpha2.bind fun alpha2 => searchRegd alpha2 (regdbOf (ofCountry regCode))).getD regdNA := by
  rw [regGetRegd, codeType_eq_ofCountry, regFindRegd, regFindIsoName, ite_self, Option.map_map]
  rfl

theorem regCfg80211Update_eq : regCfg80211Update regCode =
    searchName (maskedCode regCode) (!ofCountry regCode) (tableOf (ofCountry regCode)) := by
  rw [regCfg80211Update, toUInt16_eq_maskedCode]
  split_ifs with h
  · have hof : ofCountry regCode = true := decide_eq_true h
    rw [hof]
    rfl
  · have hof : ofCountry regCode = false := decide_eq_false h
    rw [hof]
    rfl

theorem regTargetNotify_eq (h : regCode &&& regCodeMask ≠ nullRegCode) (flags : Flags) :
    regTargetNotify flags regCode =
      if flags.internalRegdb then (regGetRegd regCode).map fun regd => { currentRegd := some regd }
      else (regCfg80211Update regCode).map fun isoName => { hint := isoName } := by
  rw [regTargetNotify, if_neg h]
  split_ifs with hinternal hcfg hflag
  · rfl
  · rfl
  · rw [regCfg80211Update, if_pos hflag]
  · rw [regCfg80211Update, if_neg hflag]

theorem getRegd_right_iff : Right (ofCountry regCode) (maskedCode regCode)
    (domainOf (ofCountry regCode)) (regGetRegd regCode) ↔
      InTable (ofCountry regCode) (maskedCode regCode) := by
  rw [regGetRegd_eq]
  refine right_map_iff fun name => ?_
  simp only [searchRegd_eq]
  rfl

theorem cfg80211Update_right_iff : Right (ofCountry regCode) (maskedCode regCode)
    (hintOf (ofCountry regCode)) (regCfg80211Update regCode) ↔
      InTable (ofCountry regCode) (maskedCode regCode) := by
  rw [regCfg80211Update_eq, ← Option.map_id' (x := searchName _ _ _)]
  exact right_map_iff fun name => rfl

theorem Right.map {α β : Type*} {isCountry : Bool} {code : UInt16}
    {of : Option RegCodeToIsoname → α} {result : Option α} (h : Right isCountry code of result)
    (g : α → β) : Right isCountry code (fun name => g (of name)) (result.map g) where
  inside hnone := h.inside (Option.map_eq_none_iff.mp hnone)
  found name hmem hnames := by rw [h.found name hmem hnames]; rfl
  absent habsent := by rw [h.absent habsent]; rfl

/-- The lookups are right exactly if the code is in its table. -/
theorem lookups_right_iff (h : regCode &&& regCodeMask ≠ nullRegCode) :
    LookupsRight regCode ↔ InTable (ofCountry regCode) (maskedCode regCode) := by
  constructor
  · intro hright
    exact (getRegd_right_iff regCode).mp hright.getRegd
  · intro htable
    have hregd := (getRegd_right_iff regCode).mpr htable
    have hcfg := (cfg80211Update_right_iff regCode).mpr htable
    refine ⟨hregd, hcfg, fun flags => ?_⟩
    rw [regTargetNotify_eq regCode h]
    by_cases hinternal : flags.internalRegdb = true
    · rw [if_pos hinternal]
      have hof : notifiedOf flags (ofCountry regCode) = fun name =>
          { currentRegd := some (domainOf (ofCountry regCode) name) } := by
        funext name
        rw [notifiedOf, if_pos hinternal]
      rw [hof]
      exact hregd.map fun regd => ({ currentRegd := some regd } : Notified)
    · rw [if_neg hinternal]
      have hof : notifiedOf flags (ofCountry regCode) = fun name =>
          { hint := hintOf (ofCountry regCode) name } := by
        funext name
        rw [notifiedOf, if_neg hinternal]
      rw [hof]
      exact hcfg.map fun isoName => ({ hint := isoName } : Notified)

theorem us_lookups_right : (0x80000348 : UInt32) &&& regCodeMask ≠ nullRegCode ∧
    LookupsRight 0x80000348 :=
  ⟨by decide, (lookups_right_iff 0x80000348 (by decide)).mpr (by decide +kernel)⟩

/-- The search for a region that has no name does not end in its table. -/
theorem unnamed_not_right : ¬LookupsRight 0x0fff := by
  intro h
  have habsent : ¬InTable (ofCountry 0x0fff) (maskedCode 0x0fff) := by decide +kernel
  exact habsent ((getRegd_right_iff 0x0fff).mp h.getRegd)

end Lookups

end Ath6kl.RegLookup
