import Ath6kl.Lib.Container
import Ath6kl.Lib.LittleEndian
import Ath6kl.Lib.Memory

/-! The container of the firmware images (init.c): `ath6kl_fetch_fw_api2` goes over the elements
of the file and keeps what it finds. The file is `size` bytes of memory; what a read outside gets
is what the memory has there. -/
namespace Ath6kl.FwApi2
open Lib.Container Lib.Memory

section Model

def le32 (mem : Mem) (pos : Nat) : Nat := Lib.LittleEndian.value (slice mem pos 4)

def einval : Int := -22
def enomem : Int := -12
def eopnotsupp : Int := -95

/-- `enum ath6kl_fw_ie_type`. -/
inductive FwIe
  | fwVersion | timestamp | otpImage | fwImage | patchImage | reservedRamSize | capabilities
  | patchAddr | boardAddr | vifMax
deriving DecidableEq

def FwIe.ofId (id : Nat) : Option FwIe :=
  [FwIe.fwVersion, .timestamp, .otpImage, .fwImage, .patchImage, .reservedRamSize, .capabilities,
    .patchAddr, .boardAddr, .vifMax][id]?

/-- `ATH6KL_FW_CAPABILITY_MAX`, `ATH6KL_VIF_MAX` and the size of `struct ath6kl_fw_ie`. -/
def capabilityMax : Nat := 1
def vifMaxLimit : Nat := 8
def fwIeSize : Nat := 8

/-- `ATH6KL_FIRMWARE_MAGIC`, "QCA-ATH6KL" with its null byte. -/
def firmwareMagic : List UInt8 := [81, 67, 65, 45, 65, 84, 72, 54, 75, 76, 0]

/-- What `struct ath6kl` takes from the file; `fw_capabilities` is a bitmap. -/
structure Ar where
  fwOtp : Option (List UInt8)
  fwOtpLen : Nat
  fw : Option (List UInt8)
  fwLen : Nat
  fwPatch : Option (List UInt8)
  fwPatchLen : Nat
  reservedRamSize : Nat
  datasetPatchAddr : Nat
  boardAddr : Nat
  fwCapabilities : Nat
  vifMax : Nat
  maxNormIface : Nat
  p2p : Bool
deriving DecidableEq

/-- `ALIGN(i, 8) / 8`. -/
def capabilityIndex (i : Nat) : Nat := (i+7)/8*8/8

def capabilityBit (mem : Mem) (pos i : Nat) : Bool :=
  (mem (pos+capabilityIndex i)).toNat.testBit (i%8)

def setCapabilities (mem : Mem) (pos : Nat) (bits : Nat) : Nat :=
  (List.range capabilityMax).foldl
    (fun bits i => if capabilityBit mem pos i then bits ||| 1 <<< i else bits) bits

def readAll (e : Element) : List Read := [⟨e.pos, e.len, e.stop⟩]

def readLe32 (e : Element) : List Read := [⟨e.pos, 4, e.stop⟩]

/-- The cases of the switch; `alloc`: whether `kmemdup` finds memory for the element there. -/
def fetchAs (mem : Mem) (alloc : Nat → Bool) (e : Element) (ar : Ar) : FwIe → Visit Int Ar
  | .otpImage =>
    if alloc e.pos then
      { state := { ar with fwOtp := some (slice mem e.pos e.len), fwOtpLen := e.len }
        reads := readAll e }
    else { state := { ar with fwOtp := none }, error := some enomem }
  | .fwImage =>
    -- in testmode there may be a firmware already
    if ar.fw.isSome then { state := ar }
    else if alloc e.pos then
      { state := { ar with fw := some (slice mem e.pos e.len), fwLen := e.len }
        reads := readAll e }
    else { state := ar, error := some enomem }
  | .patchImage =>
    if alloc e.pos then
      { state := { ar with fwPatch := some (slice mem e.pos e.len), fwPatchLen := e.len }
        reads := readAll e }
    else { state := { ar with fwPatch := none }, error := some enomem }
  | .reservedRamSize =>
    { state := { ar with reservedRamSize := le32 mem e.pos }, reads := readLe32 e }
  | .capabilities =>
    { state := { ar with fwCapabilities := setCapabilities mem e.pos ar.fwCapabilities }
      reads := (List.range capabilityMax).map fun i => ⟨e.pos+capabilityIndex i, 1, e.stop⟩ }
  | .patchAddr =>
    if e.len ≠ 4 then { state := ar }
    else { state := { ar with datasetPatchAddr := le32 mem e.pos }, reads := readLe32 e }
  | .boardAddr =>
    if e.len ≠ 4 then { state := ar }
    else { state := { ar with boardAddr := le32 mem e.pos }, reads := readLe32 e }
  | .vifMax =>
    if e.len ≠ 4 then { state := ar }
    else
      let vifMax := min (le32 mem e.pos) vifMaxLimit
      { state := { ar with
          vifMax := vifMax
          maxNormIface := if 1 < vifMax ∧ ar.p2p = false then 2 else ar.maxNormIface }
        reads := readLe32 e }
  | .fwVersion | .timestamp => { state := ar }

def fetchElement (mem : Mem) (alloc : Nat → Bool) (e : Element) (ar : Ar) : Visit Int Ar :=
  match FwIe.ofId e.id with
  | none => { state := ar }
  | some ie => fetchAs mem alloc e ar ie

/-- `hdr->id` and `hdr->len`. -/
def fwIe (mem : Mem) (pos : Nat) : Nat × Nat := (le32 mem pos, le32 mem (pos+4))

/-- `ath6kl_fetch_fw_api2`; `api2`: the hardware has such a file; `request` is what
`request_firmware` returns. -/
def fetchFwApi2 (api2 : Bool) (request : Int) (mem : Mem) (size : Nat) (alloc : Nat → Bool)
    (ar : Ar) : Visit Int Ar :=
  let magicLen := firmwareMagic.length
  if api2 = false then { state := ar, error := some eopnotsupp }
  else if request ≠ 0 then { state := ar, error := some request }
  else if size < magicLen then { state := ar, error := some einval }
  else if slice mem 0 magicLen ≠ firmwareMagic then
    { state := ar, error := some einval, reads := [⟨0, magicLen, magicLen⟩] }
  else
    let v := walk (fwIe mem) fwIeSize size (fetchElement mem alloc) einval magicLen ar
    { v with reads := ⟨0, magicLen, magicLen⟩::v.reads }

end Model

section Elements
variable {mem : Mem} {alloc : Nat → Bool}

def isA (ie : FwIe) (e : Element) : Bool := FwIe.ofId e.id == some ie

/-- The fixed number of bytes that an element's case reads is in the element. -/
def LongEnough (e : Element) : Prop :=
  (isA .reservedRamSize e = true → 4 ≤ e.len) ∧ (isA .capabilities e = true → 0 < e.len)

instance (e : Element) : Decidable (LongEnough e) := inferInstanceAs (Decidable (_ ∧ _))

/-- An element takes memory, unless it is firmware and there is one already. -/
def allocates (fw : Bool) (e : Element) : Bool :=
  isA .otpImage e || isA .patchImage e || isA .fwImage e && !fw

/-- The elements that the loop comes to: up to one for which there is no memory. -/
def reached (alloc : Nat → Bool) : Bool → List Element → List Element
  | _, [] => []
  | fw, e::es =>
    e::if allocates fw e && !alloc e.pos then [] else reached alloc (fw || isA .fwImage e) es

def stored (mem : Mem) (ar : Ar) (e : Element) : Ar :=
  (fetchElement mem (fun _ => true) e ar).state

theorem capabilityIndex_le {i : Nat} (h : i < capabilityMax) : capabilityIndex i = i/8 := by
  simp only [capabilityMax, Nat.lt_one_iff] at h
  rw [h]
  rfl

theorem fetchElement_finished (e : Element) (ar : Ar) :
    (fetchElement mem alloc e ar).finished = true := by
  rw [fetchElement]
  cases hid : FwIe.ofId e.id with
  | none => rfl
  | some ie => cases ie <;> simp only [fetchAs] <;> split_ifs <;> rfl

theorem fetchElement_error (mem : Mem) (alloc : Nat → Bool) (e : Element) (ar : Ar) :
    (fetchElement mem alloc e ar).error =
    if allocates ar.fw.isSome e && !alloc e.pos then some enomem else none := by
  rw [fetchElement]
  cases hid : FwIe.ofId e.id with
  | none => simp [allocates, isA, hid]
  | some ie =>
    cases ie
    case otpImage | patchImage =>
      cases ha : alloc e.pos <;> simp [allocates, isA, hid, fetchAs, ha]
    case fwImage =>
      cases ha : alloc e.pos <;> cases hf : ar.fw.isSome <;>
        simp [allocates, isA, hid, fetchAs, ha, hf]
    case patchAddr | boardAddr | vifMax =>
      simp only [fetchAs]
      split_ifs <;> simp_all [allocates, isA]
    all_goals simp [allocates, isA, hid, fetchAs]

theorem fetchElement_stored (e : Element) (ar : Ar)
    (h : (fetchElement mem alloc e ar).error = none) :
    (fetchElement mem alloc e ar).state = stored mem ar e := by
  rw [fetchElement] at h ⊢
  rw [stored, fetchElement]
  cases hid : FwIe.ofId e.id with
  | none => rfl
  | some ie =>
    rw [hid] at h
    cases ie
    case otpImage | patchImage => cases ha : alloc e.pos <;> simp_all [fetchAs]
    case fwImage =>
      cases ha : alloc e.pos <;> cases hf : ar.fw.isSome <;> simp_all [fetchAs]
    all_goals rfl

theorem fetchElement_reads (mem : Mem) (alloc : Nat → Bool) {size : Nat} (e : Element) (ar : Ar)
    (he : e.stop ≤ size) :
    (∀ r∈(fetchElement mem alloc e ar).reads, r.Inside size) ↔ LongEnough e := by
  have hall : (⟨e.pos, e.len, e.stop⟩ : Read).Inside size := ⟨Nat.le_refl _, he⟩
  have hword : (⟨e.pos, 4, e.stop⟩ : Read).Inside size ↔ 4 ≤ e.len := by
    simp only [Read.Inside, Element.stop] at he ⊢
    omega
  simp only [fetchElement, LongEnough, isA]
  cases hid : FwIe.ofId e.id with
  | none => simp
  | some ie =>
    cases ie
    case reservedRamSize => simp [fetchAs, readLe32, hword]
    case capabilities =>
      simp only [fetchAs, capabilityMax, Read.Inside, Element.stop, capabilityIndex] at he ⊢
      simp
      omega
    case otpImage | patchImage | fwImage =>
      simp only [fetchAs]
      split_ifs <;> simp [readAll, hall]
    case patchAddr | boardAddr | vifMax =>
      by_cases h4 : e.len = 4
      · have hin := hword.mpr h4.ge
        simp [fetchAs, readLe32, h4, hin]
      · simp [fetchAs, h4]
    all_goals simp [fetchAs]

theorem stored_eq (e : Element) (ar : Ar) : stored mem ar e =
    { ar with
      fwOtp := if isA .otpImage e then some (slice mem e.pos e.len) else ar.fwOtp
      fwOtpLen := if isA .otpImage e then e.len else ar.fwOtpLen
      fw := if isA .fwImage e && !ar.fw.isSome then some (slice mem e.pos e.len) else ar.fw
      fwLen := if isA .fwImage e && !ar.fw.isSome then e.len else ar.fwLen
      fwPatch := if isA .patchImage e then some (slice mem e.pos e.len) else ar.fwPatch
      fwPatchLen := if isA .patchImage e then e.len else ar.fwPatchLen
      reservedRamSize := if isA .reservedRamSize e then le32 mem e.pos else ar.reservedRamSize
      fwCapabilities :=
        if isA .capabilities e then setCapabilities mem e.pos ar.fwCapabilities
        else ar.fwCapabilities
      datasetPatchAddr :=
        if isA .patchAddr e && e.len == 4 then le32 mem e.pos else ar.datasetPatchAddr
      boardAddr := if isA .boardAddr e && e.len == 4 then le32 mem e.pos else ar.boardAddr
      vifMax :=
        if isA .vifMax e && e.len == 4 then min (le32 mem e.pos) vifMaxLimit else ar.vifMax
      maxNormIface :=
        if isA .vifMax e && e.len == 4 &&
          decide (1 < min (le32 mem e.pos) vifMaxLimit ∧ ar.p2p = false) then 2
        else ar.maxNormIface } := by
  rw [stored, fetchElement]
  cases hid : FwIe.ofId e.id with
  | none => simp [isA, hid]
  | some ie =>
    cases ie
    case fwImage => cases hf : ar.fw.isSome <;> simp [isA, hid, fetchAs, hf]
    case patchAddr | boardAddr | vifMax => by_cases h4 : e.len = 4 <;> simp [isA, hid, fetchAs, h4]
    all_goals simp [isA, hid, fetchAs]

theorem fw_stored (e : Element) (ar : Ar) :
    (stored mem ar e).fw.isSome = (ar.fw.isSome || isA .fwImage e) := by
  rw [stored_eq]
  cases hf : ar.fw.isSome <;> cases ha : isA .fwImage e <;> simp [hf]

theorem capability_set {i : Nat} (hi : i < capabilityMax) (pos bits : Nat) :
    (setCapabilities mem pos bits).testBit i =
      (bits.testBit i || (mem (pos+i/8)).toNat.testBit (i%8)) := by
  have hstep : ∀ (bits j : Nat),
      (if capabilityBit mem pos j then bits ||| 1 <<< j else bits).testBit i =
        (bits.testBit i || (capabilityBit mem pos j && decide (j = i))) := by
    intro bits j
    cases hb : capabilityBit mem pos j with
    | false => simp
    | true => simp [Nat.one_shiftLeft, Nat.testBit_two_pow]
  rw [setCapabilities]
  refine (foldl_any _ (fun bits : Nat => bits.testBit i) hstep _ _).trans ?_
  congr 1
  rw [← capabilityIndex_le hi, Bool.eq_iff_iff, List.any_eq_true]
  constructor
  · rintro ⟨j, -, hj⟩
    simp only [Bool.and_eq_true, decide_eq_true_eq] at hj
    rw [← hj.2]
    exact hj.1
  · intro hb
    exact ⟨i, List.mem_range.mpr hi, by simpa [capabilityBit] using hb⟩

end Elements

section Visits
variable {mem : Mem} {alloc : Nat → Bool} {size : Nat}

theorem visit_reads (mem : Mem) (alloc : Nat → Bool) (es : List Element) (ar : Ar)
    (hes : ∀ e∈es, e.stop ≤ size) :
    (∀ r∈(visit (fetchElement mem alloc) es ar).reads, r.Inside size) ↔
      ∀ e∈reached alloc ar.fw.isSome es, LongEnough e := by
  induction es generalizing ar with
  | nil => simp [visit, reached]
  | cons e es ih =>
    have he := fetchElement_reads mem alloc e ar (hes e List.mem_cons_self)
    have herr := fetchElement_error mem alloc e ar
    cases hf : allocates ar.fw.isSome e && !alloc e.pos with
    | true =>
      rw [hf, if_pos rfl] at herr
      simp only [visit, herr, Option.isSome_some, if_true, reached, hf, List.mem_singleton,
        forall_eq, he]
    | false =>
      rw [hf, if_neg (by simp)] at herr
      have hst := fetchElement_stored e ar herr
      have hrest := ih (stored mem ar e) fun x hx => hes x (List.mem_cons_of_mem e hx)
      rw [fw_stored] at hrest
      simp only [visit, herr, hst, Option.isSome_none, Bool.false_eq_true, if_false, reached, hf,
        List.forall_mem_append, List.forall_mem_cons, he, hrest]

theorem visit_succeeds {e : Element} {es : List Element} {ar : Ar}
    (h : (visit (fetchElement mem alloc) (e::es) ar).error = none) :
    (fetchElement mem alloc e ar).error = none ∧
    (visit (fetchElement mem alloc) es (stored mem ar e)).error = none ∧
    (visit (fetchElement mem alloc) (e::es) ar).state =
      (visit (fetchElement mem alloc) es (stored mem ar e)).state := by
  cases herr : (fetchElement mem alloc e ar).error with
  | some err => simp [visit, herr] at h
  | none =>
    have hst := fetchElement_stored e ar herr
    simp only [visit, herr, hst, Option.isSome_none, Bool.false_eq_true, if_false] at h ⊢
    exact ⟨trivial, h, trivial⟩

theorem visit_stored (es : List Element) (ar : Ar)
    (h : (visit (fetchElement mem alloc) es ar).error = none) :
    (visit (fetchElement mem alloc) es ar).state = es.foldl (stored mem) ar := by
  induction es generalizing ar with
  | nil => rfl
  | cons e es ih =>
    obtain ⟨-, hrest, hstate⟩ := visit_succeeds h
    rw [hstate]
    exact ih _ hrest

def lastOf (ie : FwIe) (es : List Element) : Option Element := (es.filter (isA ie)).getLast?

def firstOf (ie : FwIe) (es : List Element) : Option Element := (es.filter (isA ie)).head?

def imageOf (mem : Mem) (e : Element) : Option (List UInt8) × Nat :=
  (some (slice mem e.pos e.len), e.len)

/-- What the driver has from the elements: the images as they are in the file, the size of the
RAM, and the capabilities. The last image of a kind stays; firmware there is already is kept. -/
structure Fetched (mem : Mem) (es : List Element) (ar ar' : Ar) : Prop where
  otp : (ar'.fwOtp, ar'.fwOtpLen) =
    ((lastOf .otpImage es).map (imageOf mem)).getD (ar.fwOtp, ar.fwOtpLen)
  fw : (ar'.fw, ar'.fwLen) =
    if ar.fw.isNone then ((firstOf .fwImage es).map (imageOf mem)).getD (ar.fw, ar.fwLen)
    else (ar.fw, ar.fwLen)
  patch : (ar'.fwPatch, ar'.fwPatchLen) =
    ((lastOf .patchImage es).map (imageOf mem)).getD (ar.fwPatch, ar.fwPatchLen)
  reservedRamSize : ar'.reservedRamSize =
    ((lastOf .reservedRamSize es).map fun e => le32 mem e.pos).getD ar.reservedRamSize
  capabilities : ∀ i, i < capabilityMax → (ar'.fwCapabilities.testBit i = true ↔
    ar.fwCapabilities.testBit i = true ∨
      ∃ e∈es, isA .capabilities e = true ∧ i/8 < e.len ∧
        (mem (e.pos+i/8)).toNat.testBit (i%8) = true)

theorem fetched_foldl (es : List Element) (hes : ∀ e∈es, LongEnough e) (ar : Ar) :
    Fetched mem es ar (es.foldl (stored mem) ar) := by
  constructor
  · refine foldl_last (stored mem) (fun ar => (ar.fwOtp, ar.fwOtpLen)) ?_ es ar
    intro ar e
    rw [stored_eq]
    cases h : isA .otpImage e <;> simp [imageOf]
  · refine foldl_first (stored mem) (fun ar => (ar.fw, ar.fwLen)) (fun x => x.1.isNone)
      ?_ (fun _ => rfl) es ar
    intro ar e
    rw [stored_eq]
    cases h : isA .fwImage e <;> cases hf : ar.fw <;> simp [imageOf]
  · refine foldl_last (stored mem) (fun ar => (ar.fwPatch, ar.fwPatchLen)) ?_ es ar
    intro ar e
    rw [stored_eq]
    cases h : isA .patchImage e <;> simp [imageOf]
  · refine foldl_last (stored mem) (fun ar => ar.reservedRamSize) ?_ es ar
    intro ar e
    rw [stored_eq]
  · intro i hi
    have hstep : ∀ (ar : Ar) (e : Element), (stored mem ar e).fwCapabilities.testBit i =
        (ar.fwCapabilities.testBit i ||
          (isA .capabilities e && (mem (e.pos+i/8)).toNat.testBit (i%8))) := by
      intro ar e
      rw [stored_eq]
      cases h : isA .capabilities e <;> simp [capability_set hi]
    rw [foldl_any (stored mem) (fun ar => ar.fwCapabilities.testBit i) hstep, Bool.or_eq_true,
      List.any_eq_true]
    simp only [Bool.and_eq_true]
    constructor
    · rintro (h | ⟨e, he, hc, hb⟩)
      · exact Or.inl h
      · refine Or.inr ⟨e, he, hc, ?_, hb⟩
        have hlen := (hes e he).2 hc
        simp only [capabilityMax] at hi
        omega
    · rintro (h | ⟨e, he, hc, -, hb⟩)
      · exact Or.inl h
      · exact Or.inr ⟨e, he, hc, hb⟩

theorem reached_eq (es : List Element) (ar : Ar)
    (h : (visit (fetchElement mem alloc) es ar).error = none) :
    reached alloc ar.fw.isSome es = es := by
  induction es generalizing ar with
  | nil => rfl
  | cons e es ih =>
    obtain ⟨herr, hnext, -⟩ := visit_succeeds h
    have hrest := ih _ hnext
    rw [fw_stored] at hrest
    rw [fetchElement_error] at herr
    have hf : (allocates ar.fw.isSome e && !alloc e.pos) = false := by
      cases hf : allocates ar.fw.isSome e && !alloc e.pos with
      | false => rfl
      | true => simp [hf] at herr
    rw [reached, hf, hrest]
    rfl

end Visits

section Fetch

/-- The file is there and starts as such a file does. -/
structure Begins (api2 : Bool) (request : Int) (mem : Mem) (size : Nat) : Prop where
  api2 : api2 = true
  request : request = 0
  size : firmwareMagic.length ≤ size
  magic : slice mem 0 firmwareMagic.length = firmwareMagic

/-- The elements of the file, and whether the last one is cut. -/
def fwElements (mem : Mem) (size : Nat) : List Element × Bool :=
  elements (fwIe mem) fwIeSize size firmwareMagic.length

/-- A fetch ends, reads inside the file and inside the element it is at, and if it succeeds the
driver has what the elements say. -/
structure Sound (mem : Mem) (size : Nat) (ar : Ar) (v : Visit Int Ar) : Prop where
  finished : v.finished = true
  reads : ∀ r∈v.reads, r.Inside size
  fetched : v.error = none → Fetched mem (fwElements mem size).1 ar v.state

/-- A fetch is sound exactly when the elements that it comes to are as long as their cases read. -/
theorem fetch_fw_api2_iff (api2 : Bool) (request : Int) (mem : Mem) (size : Nat)
    (alloc : Nat → Bool) (ar : Ar) :
    Sound mem size ar (fetchFwApi2 api2 request mem size alloc ar) ↔
      (Begins api2 request mem size →
        ∀ e∈reached alloc ar.fw.isSome (fwElements mem size).1, LongEnough e) := by
  rw [fetchFwApi2]
  dsimp only
  split_ifs with h1 h2 h3 h4
  · exact iff_of_true ⟨rfl, by simp, fun h => by cases h⟩
      fun hb => by rw [hb.api2] at h1; cases h1
  · exact iff_of_true ⟨rfl, by simp, fun h => by cases h⟩ fun hb => absurd hb.request h2
  · refine iff_of_true ⟨rfl, by simp, fun h => by cases h⟩ fun hb => ?_
    have hs := hb.size
    omega
  · refine iff_of_true ⟨rfl, ?_, fun h => by cases h⟩ fun hb => absurd hb.magic h4
    simpa [Read.Inside] using Nat.not_lt.mp h3
  · have hb : Begins api2 request mem size :=
      ⟨by simpa using h1, not_not.mp h2, Nat.not_lt.mp h3, not_not.mp h4⟩
    have hmagic : (⟨0, firmwareMagic.length, firmwareMagic.length⟩ : Read).Inside size := by
      simpa [Read.Inside] using hb.size
    have hreads := visit_reads mem alloc (fwElements mem size).1 ar
      fun e he => stop_le_of_mem_elements _ _ _ he
    have hwalk := walk_reads (fwIe mem) fwIeSize size (fetchElement mem alloc) einval
      firmwareMagic.length ar
    simp only [hb, true_imp_iff]
    constructor
    · intro h
      exact hreads.mp (hwalk.mp fun r hr => h.reads r (List.mem_cons_of_mem _ hr))
    · intro h
      refine ⟨walk_finished _ _ _ _ _ fetchElement_finished (by decide) _ _, ?_, ?_⟩
      · exact List.forall_mem_cons.mpr ⟨hmagic, hwalk.mpr (hreads.mpr h)⟩
      · intro herr
        obtain ⟨hv, -⟩ := (walk_error _ _ _ _ _ _ _).mp herr
        dsimp only
        rw [walk_state, visit_stored _ _ hv]
        rw [fwElements, reached_eq _ _ hv] at h
        exact fetched_foldl _ h ar

def emptyAr : Ar :=
  { fwOtp := none, fwOtpLen := 0, fw := none, fwLen := 0, fwPatch := none, fwPatchLen := 0
    reservedRamSize := 0, datasetPatchAddr := 0, boardAddr := 0, fwCapabilities := 0, vifMax := 1
    maxNormIface := 1, p2p := false }

/-- The size of the RAM is read past the end of the file, and a capability is found in an element
without bytes: the next element, a firmware image, gives it. -/
theorem fetch_unsound :
    ¬Sound (ofList (firmwareMagic ++ [5, 0, 0, 0, 1, 0, 0, 0, 7])) 20 emptyAr
      (fetchFwApi2 true 0 (ofList (firmwareMagic ++ [5, 0, 0, 0, 1, 0, 0, 0, 7])) 20
        (fun _ => true) emptyAr) ∧
    ¬Sound (ofList (firmwareMagic ++ [6, 0, 0, 0, 0, 0, 0, 0, 3, 0, 0, 0, 1, 0, 0, 0, 9])) 28
      emptyAr (fetchFwApi2 true 0
        (ofList (firmwareMagic ++ [6, 0, 0, 0, 0, 0, 0, 0, 3, 0, 0, 0, 1, 0, 0, 0, 9])) 28
        (fun _ => true) emptyAr) := by
  refine ⟨fun h => ?_, fun h => ?_⟩
  · exact absurd h.reads (by decide +kernel)
  · exact absurd h.reads (by decide +kernel)

end Fetch

end Ath6kl.FwApi2
