import Ath6kl.P2pPs
import Ath6kl.Lib.Bitmap
import Ath6kl.Lib.Machine

/-! What a P2P-GO announces: the IEs of the user, and behind them one NoA element if there is something
to announce. The element is read back by a parser of its own. -/
namespace Ath6kl.P2pPs
open Lib.LittleEndian Lib.Machine Lib.Bitmap List

variable {s : Vif} {ps : PsInfo} {noas ds : List Descriptor} {d : Descriptor}

structure NoaElement where
  index : UInt8
  ctwindow : UInt8
  noas : List Descriptor

def Descriptor.parse (bs : List UInt8) : Descriptor where
  countOrType := bs.headD 0
  duration := UInt32.ofNat (value ((bs.drop 1).take 4))
  interval := UInt32.ofNat (value ((bs.drop 5).take 4))
  startOrOffset := UInt32.ofNat (value ((bs.drop 9).take 4))

/-- A vendor specific element of the P2P type that holds nothing but a NoA attribute, both of the
length that they tell. -/
def parseNoaIe : List UInt8 → Option NoaElement
  | id::len::o::u::i::type::attr::lo::hi::index::ctwindow::rest =>
    if [id, o, u, i, type, attr] = [0xdd, 0x50, 0x6f, 0x9a, 9, 12] ∧ len.toNat = 9 + rest.length ∧
        value [lo, hi] = 2 + rest.length ∧ rest.length % 13 = 0 then
      some ⟨index, ctwindow, records 13 Descriptor.parse (rest.length / 13) rest⟩
    else none
  | _ => none

@[simp] theorem Descriptor.length_bytes (d : Descriptor) : d.bytes.length = 13 := by
  simp [Descriptor.bytes, le32]

theorem value_le32 (x : UInt32) : UInt32.ofNat (value (le32 x)) = x := by
  rw [le32, value_bytes x.toNat_lt, UInt32.ofNat_toNat]

theorem Descriptor.parse_bytes (d : Descriptor) : Descriptor.parse d.bytes = d := by
  have hlen : ∀ x, (le32 x).length = 4 := fun x => Lib.LittleEndian.length_bytes 4 x.toNat
  have h5 : drop 5 d.bytes = le32 d.interval ++ le32 d.startOrOffset := by
    simp [Descriptor.bytes, hlen]
  have h9 : drop 9 d.bytes = le32 d.startOrOffset := by
    simp [Descriptor.bytes, drop_append, hlen]
  have h1 : drop 1 d.bytes = le32 d.duration ++ (le32 d.interval ++ le32 d.startOrOffset) := by
    simp [Descriptor.bytes]
  rw [Descriptor.parse, h1, h5, h9, take_left' (hlen _), take_left' (hlen _),
    take_of_length_le (Nat.le_of_eq (hlen _)), value_le32, value_le32, value_le32]
  rfl

theorem length_noaIe (index ctwindow : UInt8) (noas : List Descriptor) :
    (noaIe index ctwindow noas).length = 11 + 13 * noas.length := by
  simp [noaIe, Lib.LittleEndian.length_flatMap Descriptor.length_bytes]
  omega

theorem parse_noaIe (index ctwindow : UInt8) (h : noas.length ≤ maxNoaDescriptors) :
    parseNoaIe (noaIe index ctwindow noas) = some ⟨index, ctwindow, noas⟩ := by
  have hlen : (noas.flatMap Descriptor.bytes).length = 13 * noas.length :=
    Lib.LittleEndian.length_flatMap Descriptor.length_bytes noas
  have hle : noas.length ≤ 4 := h
  have hattr : 2 + 13 * noas.length<256^2 := by omega
  have hbytes : value (bytes 2 (2 + 13 * noas.length)) = 2 + 13 * noas.length := value_bytes hattr
  have hrec := records_flatMap Descriptor.length_bytes Descriptor.parse_bytes noas
  have hieLen : (UInt8.ofNat (2 + 13 * noas.length + 7)).toNat = 9 + 13 * noas.length := by
    rw [UInt8.toNat_ofNat']
    omega
  simp only [noaIe, bytes, cons_append, nil_append, parseNoaIe]
  rw [if_pos]
  · simp only [hlen, Nat.mul_div_cancel_left _ (by decide : 0<13), hrec]
  · refine ⟨trivial, ?_, ?_, ?_⟩
    · rw [hieLen, hlen]
    · rw [hlen]
      exact hbytes
    · rw [hlen, Nat.mul_mod_right]

/-- The descriptors set up so far, in their slots. -/
def Filled (ps : PsInfo) (ds : List Descriptor) : Prop :=
  ∀ i : Fin maxNoaDescriptors,
    (if ps.goNoaEnableIdx.getLsbD i.val then some (ps.noas i) else none) = ds[i.val]?

theorem Filled.reset (ps : PsInfo) : Filled (resetNoa ps) [] := by
  intro i
  simp [resetNoa]

theorem Filled.setup (h : Filled ps ds) (hlt : ds.length < maxNoaDescriptors) (d : Descriptor) :
    Filled (setupNoa ps ds.length d) (ds ++ [d]) := by
  intro i
  have hw : i.val<8 := Nat.lt_of_lt_of_le i.isLt (by decide)
  simp only [setupNoa, hlt, dif_pos, getLsbD_set hw]
  by_cases hi : ds.length = i.val
  · have hfin : (⟨ds.length, hlt⟩ : Fin maxNoaDescriptors) = i := Fin.ext hi
    simp [hfin, ← hi]
  · have hne : i ≠ ⟨ds.length, hlt⟩ := fun he => hi (congrArg Fin.val he).symm
    have hsame : (ds ++ [d])[i.val]? = ds[i.val]? := by
      rw [getElem?_append]
      split
      · rfl
      · rename_i hge
        rw [getElem?_eq_none (by simp; omega), getElem?_eq_none (by omega)]
    simpa [hi, hne, hsame] using h i

theorem Filled.fold (h : Filled ps ds) (es : List Descriptor)
    (hle : ds.length + es.length ≤ maxNoaDescriptors) :
    Filled ((es.zipIdx ds.length).foldl (fun ps d => setupNoa ps d.2 d.1) ps) (ds ++ es) := by
  induction es generalizing ps ds with
  | nil => simpa using h
  | cons e es ih =>
    rw [length_cons] at hle
    have hnext := h.setup (by omega) e
    have hlen : (ds ++ [e]).length = ds.length+1 := by simp
    have hrest := ih hnext (by omega)
    rw [zipIdx_cons, foldl_cons]
    simpa using hrest

theorem filterMap_range (n : Nat) (ds : List Descriptor) :
    (range n).filterMap (fun i => ds[i]?) = ds.take n := by
  induction n with
  | zero => rfl
  | succ n ih =>
    rw [range_succ, filterMap_append, ih, take_add_one]
    cases hn : ds[n]? with
    | none => simp [hn]
    | some x => simp [hn]

theorem filterMap_slots (n : Nat) (ds : List Descriptor) :
    (finRange n).filterMap (fun i => ds[i.val]?) = ds.take n := by
  rw [← filterMap_range, ← map_coe_finRange_eq_range, filterMap_map]
  rfl

theorem Filled.enabledNoas (h : Filled ps ds) (hle : ds.length ≤ maxNoaDescriptors) :
    ps.enabledNoas = ds := by
  have hfun : (fun i : Fin maxNoaDescriptors =>
      if ps.goNoaEnableIdx.getLsbD i.val then some (ps.noas i) else none) = fun i => ds[i.val]? :=
    funext h
  rw [PsInfo.enabledNoas, hfun, filterMap_slots, take_of_length_le hle]

theorem setups_frame {β : Type*} (f : PsInfo → β) (hf : ∀ ps i d, f (setupNoa ps i d) = f ps)
    (ps : PsInfo) (ds : List (Descriptor × Nat)) :
    f (ds.foldl (fun ps d => setupNoa ps d.2 d.1) ps) = f ps := by
  induction ds generalizing ps with
  | nil => rfl
  | cons d ds ih => rw [foldl_cons, ih, hf]

theorem setups_noaEnabled (ps : PsInfo) (ds : List (Descriptor × Nat))
    (hle : ∀ d∈ds, d.2 < maxNoaDescriptors) :
    (ds.foldl (fun ps d => setupNoa ps d.2 d.1) ps).noaEnabled = (ps.noaEnabled || !ds.isEmpty) := by
  induction ds generalizing ps with
  | nil => simp
  | cons d ds ih =>
    have hd : d.2 < maxNoaDescriptors := hle d mem_cons_self
    rw [foldl_cons, ih _ fun x hx => hle x (mem_cons_of_mem _ hx)]
    simp [setupNoa, hd]

/-- The byte of the last OppPS event. -/
def ctwindowByte : Option UInt8 → UInt8
  | none => 0
  | some ctwin => 0x80 ||| (ctwin &&& 0x7f)

/-- The power save information before a notification: what is enabled is what the target said. -/
structure Told (ps : PsInfo) (user : List UInt8) (noas : List Descriptor) (ctwindow : Option UInt8)
    (events : Nat) : Prop where
  user : ps.goLastBeaconAppIe = user
  enabledNoas : ps.enabledNoas = noas
  few : noas.length ≤ maxNoaDescriptors
  noaFlag : ps.noaEnabled = !noas.isEmpty
  byte : ps.ctwindowOppsParam = ctwindowByte ctwindow
  opppsFlag : ctwindow ≠ none → ps.opppsEnabled = true
  index : ps.index = UInt8.ofNat events

variable {user : List UInt8} {ctwindow : Option UInt8} {events : Nat}

theorem succ_index (n : Nat) : UInt8.ofNat n + 1 = UInt8.ofNat (n+1) := by
  rw [UInt8.ofNat_add]
  rfl

theorem Told.resetNoa (h : Told ps user noas ctwindow events) :
    Told (resetNoa ps) user [] ctwindow (events+1) where
  user := h.user
  enabledNoas := (Filled.reset ps).enabledNoas (Nat.zero_le _)
  few := Nat.zero_le _
  noaFlag := rfl
  byte := h.byte
  opppsFlag := h.opppsFlag
  index := by rw [P2pPs.resetNoa, h.index, succ_index]

theorem Told.setups (h : Told (P2pPs.resetNoa ps) user [] ctwindow events) {ds : List Descriptor}
    (hle : ds.length ≤ maxNoaDescriptors) :
    Told (ds.zipIdx.foldl (fun ps d => setupNoa ps d.2 d.1) (P2pPs.resetNoa ps)) user ds ctwindow
      events where
  user := by
    rw [setups_frame PsInfo.goLastBeaconAppIe, h.user]
    intro ps i d
    unfold setupNoa
    split <;> rfl
  enabledNoas := by
    have hfill := (Filled.reset ps).fold ds (by simpa using hle)
    exact hfill.enabledNoas (by simpa using hle)
  few := hle
  noaFlag := by
    rw [setups_noaEnabled, h.noaFlag]
    · cases ds <;> rfl
    · intro d hd
      have hlt := snd_lt_of_mem_zipIdx hd
      omega
  byte := by
    rw [setups_frame PsInfo.ctwindowOppsParam, h.byte]
    intro ps i d
    unfold setupNoa
    split <;> rfl
  opppsFlag hc := by
    rw [setups_frame PsInfo.opppsEnabled, h.opppsFlag hc]
    intro ps i d
    unfold setupNoa
    split <;> rfl
  index := by
    rw [setups_frame PsInfo.index, h.index]
    intro ps i d
    unfold setupNoa
    split <;> rfl

theorem Told.opps (h : Told ps user noas ctwindow events) (enable ctwin : UInt8) :
    Told (setupOpps (resetOpps ps) enable (ctwin &&& 0x7f)) user noas
      (if enable = 0 then none else some ctwin) (events+1) where
  user := h.user
  enabledNoas := h.enabledNoas
  few := h.few
  noaFlag := h.noaFlag
  byte := by
    by_cases he : enable = 0
    · simp [setupOpps, he, ctwindowByte]
    · simp [setupOpps, he, ctwindowByte, UInt8.and_assoc]
  opppsFlag _ := rfl
  index := by rw [setupOpps, resetOpps, h.index, succ_index]

/-- The IEs of the user, followed by one NoA element with what the last events told if a descriptor
or OppPS is enabled, and by nothing otherwise. -/
def Announces (s : Vif) (user ies : List UInt8) : Prop :=
  if s.noas = [] ∧ s.ctwindow = none then ies = user
  else ∃ ie index, ies = user ++ ie ∧
    parseNoaIe ie = some ⟨index, ctwindowByte s.ctwindow, s.noas⟩

/-- The beacons and the probe response announce what they should; and two elements that say
different things carry different indices, unless 256 events are between them. -/
structure Consistent (s : Vif) : Prop where
  beacon : ∀ ies, s.beacon = some ies → Announces s s.user ies
  probe : ∀ r, s.probeResp = some r → r.p2p ≠ [] →
    ∃ ies, r.sent = ies ++ r.wfd ∧ Announces s r.p2p ies
  index : ∀ a∈s.advertised, ∀ b∈s.advertised, ∀ x y, parseNoaIe a.2 = some x →
    parseNoaIe b.2 = some y → ¬ (x.ctwindow = y.ctwindow ∧ x.noas = y.noas) →
    x.index ≠ y.index ∨ a.1 + 256 ≤ b.1 ∨ b.1 + 256 ≤ a.1

/-- What is appended to the IEs of the user. -/
def PsInfo.suffix (ps : PsInfo) : List UInt8 := if ps.enabled then ps.goLastNoaIe else []

theorem PsInfo.suffix_on (h : ps.enabled = true) : ps.suffix = ps.goLastNoaIe := if_pos h

theorem PsInfo.suffix_off (h : ps.enabled = false) : ps.suffix = [] := by
  rw [PsInfo.suffix, h]
  rfl

structure Sound (s : Vif) : Prop where
  told : Told s.ps s.user s.noas s.ctwindow s.events
  wanted : s.ps.enabled = true → s.noas ≠ [] ∨ s.ctwindow ≠ none
  cached : s.ps.enabled = true → s.ps.goLastNoaIe = noaIe s.ps.index s.ps.ctwindowOppsParam s.noas
  beacon : ∀ ies, s.beacon = some ies → ies = s.user ++ s.ps.suffix
  set : s.ps.enabled = true → s.beacon ≠ none
  probe : ∀ r, s.probeResp = some r → r.p2p ≠ [] → r.sent = r.p2p ++ s.ps.suffix ++ r.wfd
  past : ∀ a∈s.advertised, a.1 ≤ s.events ∧ (a.1 = s.events → a.2 = s.ps.goLastNoaIe) ∧
    ∃ ctwindow noas, noas.length ≤ maxNoaDescriptors ∧ a.2 = noaIe (UInt8.ofNat a.1) ctwindow noas
  same : ∀ a∈s.advertised, ∀ b∈s.advertised, a.1 = b.1 → a.2 = b.2

theorem Told.enabled_of (h : Told ps user noas ctwindow events)
    (hw : noas ≠ [] ∨ ctwindow ≠ none) : ps.enabled = true := by
  rw [PsInfo.enabled, Bool.or_eq_true]
  cases hw with
  | inl hn =>
    left
    rw [h.noaFlag]
    simpa using hn
  | inr hc => exact .inr (h.opppsFlag hc)

theorem Sound.announces (h : Sound s) {user ies : List UInt8} (hies : ies = user ++ s.ps.suffix) :
    Announces s user ies := by
  rw [Announces]
  cases he : s.ps.enabled with
  | true =>
    have hw := h.wanted he
    have hnot : ¬ (s.noas = [] ∧ s.ctwindow = none) := fun ⟨h1, h2⟩ =>
      hw.elim (fun hn => hn h1) fun hc => hc h2
    rw [if_neg hnot]
    refine ⟨s.ps.goLastNoaIe, s.ps.index, by rw [hies, PsInfo.suffix_on he], ?_⟩
    rw [h.cached he, parse_noaIe _ _ h.told.few, h.told.byte]
  | false =>
    have hnone : s.noas = [] ∧ s.ctwindow = none := by
      by_contra hno
      have hw : s.noas ≠ [] ∨ s.ctwindow ≠ none := by
        by_cases hn : s.noas = []
        · exact .inr fun hc => hno ⟨hn, hc⟩
        · exact .inl hn
      rw [h.told.enabled_of hw] at he
      cases he
    rw [if_pos hnone, hies, PsInfo.suffix_off he, append_nil]

theorem ofNat_ne {m n : Nat} (hne : m ≠ n) (h1 : n < m+256) (h2 : m < n+256) :
    UInt8.ofNat m ≠ UInt8.ofNat n := by
  intro he
  have hmod := congrArg UInt8.toNat he
  rw [UInt8.toNat_ofNat', UInt8.toNat_ofNat'] at hmod
  omega

theorem Sound.consistent (h : Sound s) : Consistent s where
  beacon ies hies := h.announces (h.beacon ies hies)
  probe r hr hne := ⟨r.p2p ++ s.ps.suffix, h.probe r hr hne, h.announces rfl⟩
  index a ha b hb x y hx hy hdiff := by
    obtain ⟨-, -, ca, na, hla, hea⟩ := h.past a ha
    obtain ⟨-, -, cb, nb, hlb, heb⟩ := h.past b hb
    have hxi : x.index = UInt8.ofNat a.1 := by
      rw [hea, parse_noaIe _ _ hla] at hx
      cases hx
      rfl
    have hyi : y.index = UInt8.ofNat b.1 := by
      rw [heb, parse_noaIe _ _ hlb] at hy
      cases hy
      rfl
    by_cases hab : a.1 = b.1
    · rw [h.same a ha b hb hab, hy] at hx
      cases hx
      exact absurd ⟨rfl, rfl⟩ hdiff
    · by_cases hfar : a.1 + 256 ≤ b.1 ∨ b.1 + 256 ≤ a.1
      · exact .inr hfar
      · left
        rw [hxi, hyi]
        exact ofNat_ne hab (by omega) (by omega)

theorem setAppie_of_le {ie : List UInt8} (h : ie.length ≤ 255) : setAppie ie = ie := by
  rw [setAppie, Nat.mod_eq_of_lt (by omega), take_length]

/-- What the steps that notify have in common: the new state, but for what is advertised. -/
theorem Sound.advertise (h : Sound s) : Sound s.advertise := by
  rw [Vif.advertise]
  split
  · rename_i he
    refine { h with past := ?_, same := ?_ }
    · intro a ha
      simp only [mem_append, mem_singleton] at ha
      cases ha with
      | inl ha => exact h.past a ha
      | inr ha =>
        subst ha
        refine ⟨Nat.le_refl _, fun _ => rfl, s.ps.ctwindowOppsParam, s.noas, h.told.few, ?_⟩
        rw [← h.told.index]
        exact h.cached he
    · intro a ha b hb hab
      simp only [mem_append, mem_singleton] at ha hb
      cases ha with
      | inl ha =>
        cases hb with
        | inl hb => exact h.same a ha b hb hab
        | inr hb =>
          subst hb
          exact (h.past a ha).2.1 hab
      | inr ha =>
        subst ha
        cases hb with
        | inl hb => exact ((h.past b hb).2.1 hab.symm).symm
        | inr hb => rw [hb]
  · exact h

theorem Sound.notify (h : Sound s) (ht : Told ps s.user noas ctwindow (s.events+1))
    (hw : ps.enabled = true → noas ≠ [] ∨ ctwindow ≠ none)
    (hlen : s.user.length + (if ps.enabled then 11 + 13 * noas.length else 0) ≤ 255)
    (hstay : ps.enabled = false → s.user = [] → s.ps.enabled = false) :
    Sound (Vif.notify { s with noas := noas, ctwindow := ctwindow } (updateNotif ps)) := by
  have hpast : ∀ (ie : List UInt8), ∀ a∈s.advertised, a.1 ≤ s.events+1 ∧
      (a.1 = s.events+1 → a.2 = ie) ∧ ∃ ctwindow noas, noas.length ≤ maxNoaDescriptors ∧
        a.2 = noaIe (UInt8.ofNat a.1) ctwindow noas := by
    intro ie a ha
    obtain ⟨hle, -, hex⟩ := h.past a ha
    exact ⟨Nat.le_succ_of_le hle, fun he => by omega, hex⟩
  rw [Vif.notify]
  apply Sound.advertise
  cases he : ps.enabled with
  | true =>
    have hie : (s.user ++ noaIe ps.index ps.ctwindowOppsParam noas).length ≤ 255 := by
      rw [length_append, length_noaIe]
      simpa [he] using hlen
    simp only [updateNotif, he, if_true, ht.user, ht.enabledNoas, setAppie_of_le hie]
    refine
      { told := ⟨rfl, ht.enabledNoas, ht.few, ht.noaFlag, ht.byte, ht.opppsFlag, ht.index⟩
        wanted := fun _ => hw he
        cached := fun _ => rfl
        beacon := ?_
        set := nofun
        probe := nofun
        past := hpast _
        same := h.same }
    intro ies hies
    cases hies
    rw [PsInfo.suffix_on]
    exact he
  | false =>
    have hno : ¬ ps.enabled = true := by simp [he]
    simp only [updateNotif, he, Bool.false_eq_true, if_false, ht.user]
    by_cases hu : s.user.length = 0
    · have hu' : s.user = [] := length_eq_zero_iff.mp hu
      simp only [hu, if_true]
      refine
        { told := ht
          wanted := fun hon => absurd hon hno
          cached := fun hon => absurd hon hno
          beacon := ?_
          set := fun hon => absurd hon hno
          probe := nofun
          past := hpast _
          same := h.same }
      intro ies hies
      have hold := h.beacon ies hies
      rw [hold, PsInfo.suffix_off (hstay he hu'), PsInfo.suffix_off he]
    · have hle : s.user.length ≤ 255 := by simpa [he] using hlen
      simp only [hu, if_false, setAppie_of_le hle]
      refine
        { told := ⟨rfl, ht.enabledNoas, ht.few, ht.noaFlag, ht.byte, ht.opppsFlag, ht.index⟩
          wanted := fun hon => absurd hon hno
          cached := fun hon => absurd hon hno
          beacon := ?_
          set := fun hon => absurd hon hno
          probe := nofun
          past := hpast _
          same := h.same }
      intro ies hies
      cases hies
      rw [PsInfo.suffix_off, append_nil]
      exact he

/-- The IEs for beacons fit in a byte; OppPS is not disabled while no descriptor is enabled, nor the
last descriptor after OppPS was disabled; and the user's IEs are not empty when the element is
removed. -/
def Meets (s : Vif) : Event → Prop
  | .noaInfo ev =>
    if ev.enable ≠ 0 ∧ ev.noas ≠ [] then
      s.user.length + (11 + 13 * min maxNoaDescriptors ev.noas.length) ≤ 255
    else if s.ps.opppsEnabled then s.ctwindow ≠ none ∧ s.user.length + 11 ≤ 255
    else s.user.length ≤ 255 ∧ (s.user = [] → s.ps.noaEnabled = false)
  | .opppsInfo enable _ => (enable ≠ 0 ∨ s.noas ≠ []) ∧
    s.user.length + (11 + 13 * s.noas.length) ≤ 255
  | .beaconIes ies => ies.length + s.ps.suffix.length ≤ 255
  | .probeResp _ _ => True

theorem noaInfo_eq (ps : PsInfo) (ev : NoaInfo) :
    noaInfoEvent ps ev =
      if ev.enable ≠ 0 ∧ ev.noas ≠ [] then
        updateNotif ((ev.noas.take maxNoaDescriptors).zipIdx.foldl
          (fun ps d => setupNoa ps d.2 d.1) (resetNoa ps))
      else updateNotif (resetNoa ps) := by
  have hnil : (ev.noas.take maxNoaDescriptors).length = 0 ↔ ev.noas = [] := by
    rw [length_take, Nat.min_eq_zero_iff, length_eq_zero_iff]
    simp
  by_cases he : ev.enable = 0
  · simp [noaInfoEvent, he]
  · by_cases hn : ev.noas = []
    · simp [noaInfoEvent, he, hn]
    · have hn' : ¬ (ev.noas.take maxNoaDescriptors).length = 0 := fun h => hn (hnil.mp h)
      simp only [noaInfoEvent, he, hn', ne_eq, hn, not_false_eq_true, and_self, if_true, or_self,
        if_false]

theorem noas_of_off {ev : NoaInfo} (hoff : ¬ (ev.enable ≠ 0 ∧ ev.noas ≠ [])) :
    (if ev.enable = 0 then [] else ev.noas.take maxNoaDescriptors) = [] := by
  split
  · rfl
  · rename_i hen
    have hno : ev.noas = [] := by
      by_contra hne
      exact hoff ⟨hen, hne⟩
    rw [hno, take_nil]

theorem noaInfo_sound (h : Sound s) {ev : NoaInfo} (hm : Meets s (.noaInfo ev)) :
    Sound (step s (.noaInfo ev)) := by
  simp only [Meets] at hm
  simp only [step]
  rw [noaInfo_eq]
  by_cases hon : ev.enable ≠ 0 ∧ ev.noas ≠ []
  · rw [if_pos hon] at hm ⊢
    have hne : ev.noas.take maxNoaDescriptors ≠ [] := by simpa using hon.2
    rw [if_neg hon.1]
    have ht := h.told.resetNoa.setups (length_take_le _ ev.noas)
    apply h.notify ht
    · exact fun _ => .inl hne
    · rw [if_pos (ht.enabled_of (.inl hne)), length_take]
      exact hm
    · intro hoff
      rw [ht.enabled_of (.inl hne)] at hoff
      cases hoff
  · rw [if_neg hon] at hm ⊢
    rw [noas_of_off hon]
    have ht := h.told.resetNoa
    have hen : (resetNoa s.ps).enabled = s.ps.opppsEnabled := by simp [PsInfo.enabled, resetNoa]
    apply h.notify ht
    · intro hen'
      rw [hen] at hen'
      rw [if_pos hen'] at hm
      exact .inr hm.1
    · rw [hen]
      split
      · rename_i hopps
        rw [if_pos hopps] at hm
        exact hm.2
      · rename_i hopps
        rw [if_neg hopps] at hm
        exact hm.1
    · intro hoff hu
      rw [hen] at hoff
      simp only [hoff, Bool.false_eq_true, if_false] at hm
      rw [PsInfo.enabled, hm.2 hu, hoff]
      rfl

theorem opppsInfo_sound (h : Sound s) {enable ctwin : UInt8} (hm : Meets s (.opppsInfo enable ctwin)) :
    Sound (step s (.opppsInfo enable ctwin)) := by
  have ht := h.told.opps enable ctwin
  have hen : (setupOpps (resetOpps s.ps) enable (ctwin &&& 0x7f)).enabled = true := by
    simp [PsInfo.enabled, setupOpps]
  apply h.notify ht
  · intro _
    cases hm.1 with
    | inl he =>
      right
      simp [he]
    | inr hn => exact .inl hn
  · rw [if_pos hen]
    exact hm.2
  · intro hoff
    rw [hen] at hoff
    cases hoff

theorem userAppIe_beacon_ies (ps : PsInfo) (ies : List UInt8) :
    (userAppIe ps .beacon ies).2 = ies ++ ps.suffix := by
  simp only [userAppIe]
  cases he : ps.enabled with
  | true => rw [PsInfo.suffix_on he, if_pos (by exact he)]
  | false =>
    rw [PsInfo.suffix_off he, append_nil, if_neg]
    intro hon
    exact Bool.false_ne_true (he.symm.trans hon)

theorem userAppIe_beacon {ies : List UInt8} (h : ies.length<65536) (ps : PsInfo) :
    userAppIe ps .beacon ies = ({ ps with goLastBeaconAppIe := ies }, ies ++ ps.suffix) := by
  refine Prod.ext ?_ (userAppIe_beacon_ies ps ies)
  simp only [userAppIe, Nat.mod_eq_of_lt h, take_length]
  split_ifs <;> rfl

theorem userAppIe_probeResp {p2p : List UInt8} (h : p2p.length ≠ 0) (ps : PsInfo) :
    userAppIe ps .probeResp p2p = (ps, p2p ++ ps.suffix) := by
  simp only [userAppIe, h, if_false]
  cases he : ps.enabled with
  | true => rw [PsInfo.suffix_on he, if_pos rfl]
  | false =>
    rw [PsInfo.suffix_off he, append_nil]
    rfl

theorem beaconIes_sound (h : Sound s) {ies : List UInt8} (hm : Meets s (.beaconIes ies)) :
    Sound (step s (.beaconIes ies)) := by
  have hm' : ies.length + s.ps.suffix.length ≤ 255 := hm
  have hfit : (ies ++ s.ps.suffix).length ≤ 255 := by
    rw [length_append]
    exact hm'
  simp only [step, userAppIe_beacon (by omega : ies.length<65536), setAppie_of_le hfit]
  apply Sound.advertise
  have ht := h.told
  refine
    { told := ⟨rfl, ht.enabledNoas, ht.few, ht.noaFlag, ht.byte, ht.opppsFlag, ht.index⟩
      wanted := h.wanted
      cached := h.cached
      beacon := ?_
      set := nofun
      probe := nofun
      past := h.past
      same := h.same }
  intro x hx
  cases hx
  rfl

theorem probeResp_sound (h : Sound s) (p2p wfd : List UInt8) :
    Sound (step s (.probeResp p2p wfd)) := by
  simp only [step]
  by_cases hp : p2p.length = 0
  · simp only [userAppIe, hp, if_true]
    refine { h with probe := ?_ }
    intro r hr hne
    cases hr
    exact absurd (length_eq_zero_iff.mp hp) hne
  · simp only [userAppIe_probeResp hp, hp, if_false]
    apply Sound.advertise
    refine { h with probe := ?_ }
    intro r hr _
    cases hr
    rfl

theorem step_sound (h : Sound s) {e : Event} (hm : Meets s e) : Sound (step s e) := by
  cases e with
  | noaInfo ev => exact noaInfo_sound h hm
  | opppsInfo enable ctwin => exact opppsInfo_sound h hm
  | beaconIes ies => exact beaconIes_sound h hm
  | probeResp p2p wfd => exact probeResp_sound h p2p wfd

theorem Announces.append {user ies : List UInt8} (h : Announces s user ies) :
    ∃ x, ies = user ++ x := by
  rw [Announces] at h
  split at h
  · exact ⟨[], by simp [h]⟩
  · obtain ⟨ie, _, hies, -⟩ := h
    exact ⟨ie, hies⟩

/-- IEs that lost their end in `set_appie` do not begin with those of the user. -/
theorem setAppie_fits {user x y : List UInt8} (hx : x.length<256)
    (h : setAppie (user ++ x) = user ++ y) : user.length + x.length ≤ 255 := by
  have hlen := congrArg length h
  rw [setAppie, length_take, length_append, length_append] at hlen
  omega

@[simp] theorem advertise_beacon (s : Vif) : s.advertise.beacon = s.beacon := by
  rw [Vif.advertise]
  split <;> rfl

@[simp] theorem advertise_user (s : Vif) : s.advertise.user = s.user := by
  rw [Vif.advertise]
  split <;> rfl

theorem announces_advertise {user ies : List UInt8} :
    Announces s.advertise user ies ↔ Announces s user ies := by
  rw [Vif.advertise]
  split <;> rfl

theorem notify_meets (ht : Told ps s.user noas ctwindow events) (he : ps.enabled = true)
    (hc : Consistent (Vif.notify { s with noas := noas, ctwindow := ctwindow } (updateNotif ps))) :
    (noas ≠ [] ∨ ctwindow ≠ none) ∧ s.user.length + (11 + 13 * noas.length) ≤ 255 := by
  have hlen : (noaIe ps.index ps.ctwindowOppsParam noas).length = 11 + 13 * noas.length :=
    length_noaIe _ _ _
  have hfew : noas.length ≤ 4 := ht.few
  have hann := hc.beacon (setAppie (s.user ++ noaIe ps.index ps.ctwindowOppsParam noas)) (by
    simp [Vif.notify, updateNotif, he, ht.user, ht.enabledNoas])
  rw [Vif.notify, announces_advertise, advertise_user] at hann
  obtain ⟨x, hx⟩ := hann.append
  have hfit := setAppie_fits (by omega) hx
  rw [hlen] at hfit
  refine ⟨?_, hfit⟩
  by_contra hno
  rw [not_or, not_not, not_not] at hno
  rw [Announces, if_pos hno, setAppie_of_le (by rw [length_append, hlen]; exact hfit)] at hann
  have hlong := congrArg length hann
  rw [length_append, hlen] at hlong
  dsimp only at hlong
  omega

theorem noaInfo_meets (h : Sound s) {ev : NoaInfo} (hc : Consistent (step s (.noaInfo ev))) :
    Meets s (.noaInfo ev) := by
  simp only [step] at hc
  rw [noaInfo_eq] at hc
  simp only [Meets]
  by_cases hon : ev.enable ≠ 0 ∧ ev.noas ≠ []
  · rw [if_pos hon] at hc ⊢
    rw [if_neg hon.1] at hc
    have hne : ev.noas.take maxNoaDescriptors ≠ [] := by simpa using hon.2
    have ht := h.told.resetNoa.setups (length_take_le _ ev.noas)
    have hfit := (notify_meets ht (ht.enabled_of (.inl hne)) hc).2
    rw [length_take] at hfit
    exact hfit
  · rw [if_neg hon] at hc ⊢
    rw [noas_of_off hon] at hc
    have ht := h.told.resetNoa
    split
    · rename_i hopps
      have hen : (resetNoa s.ps).enabled = true := by simp [PsInfo.enabled, resetNoa, hopps]
      obtain ⟨hw, hfit⟩ := notify_meets ht hen hc
      exact ⟨hw.resolve_left fun hn => hn rfl, hfit⟩
    · rename_i hopps
      have hen : (resetNoa s.ps).enabled = false := by
        simpa [PsInfo.enabled, resetNoa] using hopps
      constructor
      · by_cases hu : s.user.length = 0
        · omega
        · have hann := hc.beacon (setAppie s.user) (by
            simp [Vif.notify, updateNotif, hen, ht.user, hu])
          rw [Vif.notify, announces_advertise, advertise_user] at hann
          obtain ⟨x, hx⟩ := hann.append
          have hx' : setAppie (s.user ++ []) = s.user ++ x := by
            rw [append_nil]
            exact hx
          simpa using setAppie_fits (by simp) hx'
      · intro hu
        by_contra hnoa
        rw [Bool.not_eq_false] at hnoa
        -- nothing is set, and the last element stays
        have hon' : s.ps.enabled = true := by simp [PsInfo.enabled, hnoa]
        obtain ⟨ies, hies⟩ := Option.ne_none_iff_exists'.mp (h.set hon')
        have hlast := h.beacon ies hies
        have hann := hc.beacon ies (by
          simp [Vif.notify, updateNotif, hen, ht.user, hu, hies])
        rw [Vif.notify, announces_advertise, advertise_user] at hann
        have hopps' : s.ctwindow = none := by
          by_contra hc'
          exact hopps (h.told.opppsFlag hc')
        rw [Announces, if_pos ⟨rfl, hopps'⟩] at hann
        have hlong := congrArg length (hlast.symm.trans hann)
        rw [PsInfo.suffix_on hon', h.cached hon', length_append, length_noaIe] at hlong
        dsimp only at hlong
        omega

theorem opppsInfo_meets (h : Sound s) {enable ctwin : UInt8}
    (hc : Consistent (step s (.opppsInfo enable ctwin))) : Meets s (.opppsInfo enable ctwin) := by
  have ht := h.told.opps enable ctwin
  have hen : (setupOpps (resetOpps s.ps) enable (ctwin &&& 0x7f)).enabled = true := by
    simp [PsInfo.enabled, setupOpps]
  obtain ⟨hw, hfit⟩ := notify_meets ht hen hc
  refine ⟨?_, hfit⟩
  cases hw with
  | inl hn => exact .inr hn
  | inr hct =>
    left
    intro he
    exact hct (if_pos he)

theorem beaconIes_meets (h : Sound s) {ies : List UInt8}
    (hc : Consistent (step s (.beaconIes ies))) : Meets s (.beaconIes ies) := by
  have hshort : s.ps.suffix.length<256 := by
    cases he : s.ps.enabled with
    | true =>
      have hfew : s.noas.length ≤ 4 := h.told.few
      rw [PsInfo.suffix_on he, h.cached he, length_noaIe]
      omega
    | false => simp [PsInfo.suffix_off he]
  simp only [step] at hc
  have hann := hc.beacon (setAppie (ies ++ s.ps.suffix)) (by simp [userAppIe_beacon_ies])
  rw [announces_advertise, advertise_user] at hann
  obtain ⟨x, hx⟩ := hann.append
  exact setAppie_fits hshort hx

theorem step_meets (h : Sound s) {e : Event} (hc : Consistent (step s e)) : Meets s e := by
  cases e with
  | noaInfo ev => exact noaInfo_meets h hc
  | opppsInfo enable ctwin => exact opppsInfo_meets h hc
  | beaconIes ies => exact beaconIes_meets h hc
  | probeResp p2p wfd => trivial

def fresh : Vif := {}

theorem fresh_sound : Sound fresh where
  told :=
    { user := rfl
      enabledNoas := (Filled.reset {}).enabledNoas (Nat.zero_le _)
      few := Nat.zero_le _
      noaFlag := rfl
      byte := rfl
      opppsFlag := fun h => absurd rfl h
      index := rfl }
  wanted := nofun
  cached := nofun
  beacon := nofun
  set := nofun
  probe := nofun
  past := nofun
  same := nofun

theorem noa_element_announced (es : List Event) :
    (∀ u, u <+: es → Consistent (run step fresh u)) ↔ AllSteps step Meets fresh es := by
  apply prefix_iff_allSteps (I := Sound) fun _ h => h.consistent
  · intro s e h hm
    exact step_sound h hm
  · intro s e h hc
    exact step_meets h hc
  · exact fresh_sound

/-- OppPS is disabled, and an empty element is announced; and the last descriptor is disabled before
the user has set any IEs, and its element stays. -/
theorem noa_element_stale :
    ¬ Consistent (run step fresh [.beaconIes [0xdd, 0], .opppsInfo 0 0]) ∧
    ¬ Consistent (run step fresh [.noaInfo ⟨1, [{}]⟩, .noaInfo ⟨0, []⟩]) := by
  refine ⟨fun h => ?_, fun h => ?_⟩
  · have hann := h.beacon ([0xdd, 0] ++ noaIe 1 0 []) (by decide)
    rw [Announces, if_pos (by decide)] at hann
    exact absurd hann (by decide)
  · have hann := h.beacon (noaIe 1 0 [{}]) (by decide)
    rw [Announces, if_pos (by decide)] at hann
    exact absurd hann (by decide)

end Ath6kl.P2pPs
