import Mathlib.Data.List.Basic
import Ath6kl.Lib.BestScan
import Ath6kl.Lib.Machine

/-! The recommended channels (p2p.c, ath6kl_p2p_rc_*): one record for each channel of the
wiphy, filled from scan results, and a cache of the channels last recommended. A channel
object is its index in the wiphy, a record pointer its slot. -/
namespace Ath6kl.P2pRc
open Lib.BestScan

inductive Band where
  | band2G | band5G
deriving DecidableEq

structure Channel where
  band : Band
  centerFreq : Nat
deriving DecidableEq

structure ChanFlags where
  disabled : Bool
  passiveScan : Bool
  noIbss : Bool
  radar : Bool
deriving DecidableEq

def noFlags : ChanFlags := ⟨false, false, false, false⟩

def ChanFlags.restricted (f : ChanFlags) : Bool := f.radar || f.passiveScan || f.noIbss

/-- The channels of all bands, in the order of the bands. -/
structure Wiphy where
  channels : List Channel

def Wiphy.freq (W : Wiphy) (c : Nat) : Nat := (W.channels.getD c ⟨.band2G, 0⟩).centerFreq

def max2gChanRecord : Nat := 14
def max5gChanRecord : Nat := 66
def maxChanRecord : Nat := max2gChanRecord + max5gChanRecord
def maxSnr : Nat := 96
def nullSnr : Nat := maxSnr + 1

def frequencyToChannel (freq : Nat) : Int :=
  if freq = 2484 then 14
  else if freq < 2484 then ((freq : Int) - 2407).tdiv 5
  else if 4910 ≤ freq ∧ freq ≤ 4980 then ((freq : Int) - 4000).tdiv 5
  else ((freq : Int) - 5000).tdiv 5

def getChanSlot (c : Channel) : Int :=
  match c.band with
  | .band2G => frequencyToChannel c.centerFreq - 1
  | .band5G => max2gChanRecord + (frequencyToChannel c.centerFreq - 34).tdiv 2

/-- The slot of a channel, if it has a record. -/
def Wiphy.slot (W : Wiphy) (c : Nat) : Option Nat :=
  let slot := getChanSlot (W.channels.getD c ⟨.band2G, 0⟩)
  if 0 ≤ slot ∧ slot < maxChanRecord then some slot.toNat else none

structure ChanRecord where
  channel : Option Nat
  bestSnr : Nat
  averSnr : Nat
deriving DecidableEq

def nullRecord : ChanRecord := ⟨none, nullSnr, nullSnr⟩

def zeroRecord : ChanRecord := ⟨none, 0, 0⟩

inductive UserChanType where
  | black | white
deriving DecidableEq

/-- What a recommendation is computed from. The user list holds the non-zero entries of the
array, which is filled from its front. -/
structure RcTable where
  records : List ChanRecord
  chanFlags : List ChanFlags
  userChanType : UserChanType
  userChanList : List Nat
  snrCompensation : Nat
  highChan : Bool
deriving DecidableEq

def RcTable.record (t : RcTable) (i : Nat) : ChanRecord := t.records.getD i nullRecord

def RcTable.flags (t : RcTable) (c : Nat) : ChanFlags := t.chanFlags.getD c noFlags

def RcTable.setAver (t : RcTable) (i v : Nat) : RcTable :=
  { t with records := t.records.modify i fun r => { r with averSnr := v } }

def RcTable.high (t : RcTable) : Nat := if t.highChan then 1 else 0

def isUserChannel (t : RcTable) (freq : Nat) : Bool :=
  if freq∈t.userChanList then t.userChanType == .white else !(t.userChanType == .white)

def isSocialChannel (freq : Nat) : Bool := freq == 2412 || freq == 2437 || freq == 2462

def isLteChannel (freq : Nat) : Bool := decide (2457 ≤ freq)

/-- The operating classes: least and greatest frequency, and the distance of two channels. -/
def p2pOperChan : List (Nat × Nat × Nat) :=
  [(2412, 2472, 5), (5180, 5240, 20), (5180, 5220, 20), (5200, 5240, 20), (5745, 5805, 20),
    (5745, 5825, 20), (5745, 5785, 20), (5765, 5805, 20)]

def isP2pChannel (freq : Nat) : Bool :=
  p2pOperChan.any fun o =>
    decide (o.1 ≤ freq) && decide (freq ≤ o.2.1) && (freq - o.1) % o.2.2 == 0

def averageChanCnt : Nat := 5
def averageChanStart : Nat := 2412
def averageChanEnd : Nat := 2472

/-- The channels within 10 MHz of the slot's own. -/
def adjChan (freq i : Nat) : List Nat :=
  i :: [1, 2].flatMap fun j =>
    (if averageChanStart + 5*j ≤ freq then [i-j] else []) ++
      if freq + 5*j ≤ averageChanEnd then [i+j] else []

def averageSnr (t : RcTable) (chan : List Nat) : Nat :=
  let snr := fun i => if (t.record i).channel.isSome then (t.record i).bestSnr else nullSnr
  let missing := (averageChanCnt - chan.length) * nullSnr
  let averSnr := chan.foldl (fun sum i => sum + snr i) missing
  let compensate := if averageChanCnt / 2 < averSnr % averageChanCnt then 1 else 0
  averSnr / averageChanCnt + compensate

def averOf (t : RcTable) (freq i : Nat) : Nat :=
  if freq ≤ averageChanEnd then averageSnr t (adjChan freq i) else (t.record i).bestSnr

structure Want2g where
  onlyP2pSocial : Bool
  onlyP2p : Bool
  userChan : Bool
  noLte : Bool

def Want2g.skips (w : Want2g) (t : RcTable) (freq c : Nat) : Bool :=
  (w.userChan && !isUserChannel t freq) ||
  (w.onlyP2pSocial && !isSocialChannel freq) ||
  (w.onlyP2p && (t.flags c).restricted && !isP2pChannel freq) ||
  (w.noLte && isLteChannel freq)

structure Want5g where
  onlyP2p : Bool
  noDfs : Bool
  userChan : Bool

def Want5g.skips (w : Want5g) (t : RcTable) (freq c i : Nat) : Bool :=
  (w.userChan && !isUserChannel t freq) ||
  (w.onlyP2p && (t.flags c).restricted && !isP2pChannel freq) ||
  (w.noDfs && (t.flags c).radar && (t.record i).bestSnr == nullSnr)

section Get
variable (W : Wiphy)

def get2gStep (w : Want2g) (st : RcTable × Option Nat) (i : Nat) : RcTable × Option Nat :=
  let (t, best) := st
  match (t.record i).channel with
  | none => (t, best)
  | some c =>
    if w.skips t (W.freq c) c then (t, best)
    else
      let t := t.setAver i (averOf t (W.freq c) i)
      let beats := fun x b => decide ((t.record b).averSnr < (t.record x).averSnr + t.high)
      (t, keep beats best i)

/-- `_p2p_rc_get_2g_chan`: the channel of the greatest average, writing the averages. -/
def get2gChan (w : Want2g) (t : RcTable) : RcTable × Option Nat :=
  (List.range max2gChanRecord).foldl (get2gStep W w) (t, none)

def get5gStep (w : Want5g) (t : RcTable) (best : Option Nat) (i : Nat) : Option Nat :=
  match (t.record i).channel with
  | none => best
  | some c =>
    if w.skips t (W.freq c) c i then best
    else keep (fun x b => decide ((t.record b).bestSnr < (t.record x).bestSnr + t.high)) best i

def slots5g : List Nat := (List.range max5gChanRecord).map (max2gChanRecord + ·)

def get5gChan (w : Want5g) (t : RcTable) : Option Nat := slots5g.foldl (get5gStep W w t) none

end Get

inductive RcType where
  | all2G | all5G | overall | social | p2p2G | p2p5G | allP2p | noDfs5G | overallNoDfs
  | noLte2G | overallNoLte | overallNoLteDfs | userChan
deriving DecidableEq

def RcType.all : List RcType :=
  [.all2G, .all5G, .overall, .social, .p2p2G, .p2p5G, .allP2p, .noDfs5G, .overallNoDfs,
    .noLte2G, .overallNoLte, .overallNoLteDfs, .userChan]

theorem RcType.mem_all (ty : RcType) : ty∈RcType.all := by
  cases ty <;> decide

/-- The records and the pointers to the recommended ones, `last_p2p_rc`. -/
structure Picks where
  tab : RcTable
  last : RcType → Option Nat

def noPicks : RcType → Option Nat := fun _ => none

def Picks.put (p : Picks) (ty : RcType) (o : Option Nat) : Picks :=
  { p with last := fun u => if u = ty then o else p.last u }

def Picks.set2g (W : Wiphy) (p : Picks) (ty : RcType) (w : Want2g) : Picks :=
  let r := get2gChan W w p.tab
  { p with tab := r.1 }.put ty r.2

def Picks.set5g (W : Wiphy) (p : Picks) (ty : RcType) (w : Want5g) : Picks :=
  p.put ty (get5gChan W w p.tab)

/-- The better of a 2 GHz and a 5 GHz record, 5 GHz if they have the same value. -/
def Picks.setOverall (p : Picks) (ty : RcType) (g2 g5 : Option Nat) : Picks :=
  match g2, g5 with
  | some a, some b =>
    if (p.tab.record b).bestSnr + p.tab.snrCompensation < (p.tab.record a).averSnr
    then p.put ty (some a) else p.put ty (some b)
  | some a, none => p.put ty (some a)
  | none, some b => p.put ty (some b)
  | none, none => p

def Picks.setUser (W : Wiphy) (p : Picks) : Picks :=
  let r := get2gChan W ⟨false, false, true, false⟩ p.tab
  let g5 := get5gChan W ⟨false, false, true⟩ r.1
  { p with tab := r.1 }.setOverall .userChan r.2 g5

/-- The computation of `ath6kl_p2p_rc_get`. -/
def Picks.compute (W : Wiphy) (p : Picks) : Picks :=
  let p := p.set2g W .all2G ⟨false, false, false, false⟩
  let p := p.set5g W .all5G ⟨false, false, false⟩
  let p := p.setOverall .overall (p.last .all2G) (p.last .all5G)
  let p := p.set2g W .social ⟨true, false, false, false⟩
  let p := p.set2g W .p2p2G ⟨false, true, false, false⟩
  let p := p.set5g W .p2p5G ⟨true, true, false⟩
  let p := p.setOverall .allP2p (p.last .p2p2G) (p.last .p2p5G)
  let p := p.set5g W .noDfs5G ⟨false, true, false⟩
  let p := p.setOverall .overallNoDfs (p.last .all2G) (p.last .noDfs5G)
  let p := p.set2g W .noLte2G ⟨false, false, false, true⟩
  let p := p.setOverall .overallNoLte (p.last .noLte2G) (p.last .all5G)
  let p := p.setOverall .overallNoLteDfs (p.last .noLte2G) (p.last .noDfs5G)
  p.setUser W

/-- The frequencies reported, `rc_report`; a field without a record is left as it was. -/
def Picks.report (W : Wiphy) (p : Picks) (ty : RcType) : Option Nat :=
  match p.last ty with
  | none => none
  | some i => (p.tab.record i).channel.map W.freq

/-- Some pointer's record has no channel, so that reporting it reads through `NULL`. -/
def Picks.dangling (p : Picks) : Bool :=
  RcType.all.any fun ty =>
    match p.last ty with
    | none => false
    | some i => (p.tab.record i).channel.isNone

def freshReport (W : Wiphy) (t : RcTable) : RcType → Option Nat :=
  (Picks.compute W ⟨t, noPicks⟩).report W

structure Rc where
  picks : Picks
  needUpdated : Bool
  done : Bool
  fetched : Bool
  alwaysFresh : Bool
  oops : Bool
  basis : RcTable

/-- A table without the averages, which are written before they are read. -/
def RcTable.forget (t : RcTable) : RcTable :=
  { t with records := t.records.map fun r => { r with averSnr := 0 } }

/-- `ath6kl_p2p_rc_init`: a cleared context, marked as done. -/
def rcInit (chanFlags : List ChanFlags) : Rc :=
  let t : RcTable :=
    { records := List.replicate maxChanRecord zeroRecord, chanFlags := chanFlags,
      userChanType := .black, userChanList := [], snrCompensation := 0, highChan := false }
  { picks := ⟨t, noPicks⟩, needUpdated := false, done := true, fetched := false,
    alwaysFresh := false, oops := false, basis := t.forget }

def fetchRecord (W : Wiphy) (flags : List ChanFlags) (rs : List ChanRecord) (c : Nat) :
    List ChanRecord :=
  if (flags.getD c noFlags).disabled then rs
  else
    match W.slot c with
    | none => rs
    | some i => rs.modify i fun r => { r with channel := some c }

def fetchRecords (W : Wiphy) (flags : List ChanFlags) : List ChanRecord :=
  (List.range W.channels.length).foldl (fetchRecord W flags)
    (List.replicate maxChanRecord nullRecord)

def Rc.setRecords (p : Rc) (rs : List ChanRecord) : Rc :=
  { p with picks := { p.picks with tab := { p.picks.tab with records := rs } } }

def Rc.fetchChan (W : Wiphy) (p : Rc) : Rc :=
  { p.setRecords (fetchRecords W p.picks.tab.chanFlags) with fetched := true }

/-- `ath6kl_reg_update`, which leaves these flags in the channels. -/
def Rc.regUpdate (W : Wiphy) (p : Rc) (flags : List ChanFlags) : Rc :=
  { p with picks := { p.picks with tab := { p.picks.tab with chanFlags := flags } } }.fetchChan W

def Rc.resetChanRecord (W : Wiphy) (p : Rc) : Rc :=
  let clear := fun r : ChanRecord => { r with bestSnr := nullSnr, averSnr := nullSnr }
  let p := p.setRecords (p.picks.tab.records.map clear)
  if p.fetched then p else p.fetchChan W

def Rc.scanStart (W : Wiphy) (p : Rc) (localScan scanning allBands : Bool) : Rc :=
  if localScan || (scanning && allBands) then
    { p.resetChanRecord W with needUpdated := true }
  else p

def Rc.flush (p : Rc) : Rc :=
  { p with done := false, picks := { p.picks with last := noPicks } }

def Rc.scanCompleteEvent (p : Rc) (aborted : Bool) : Rc :=
  let p := { p with needUpdated := false }
  if aborted then p else p.flush

def keepSnr (r : ChanRecord) (snr : Nat) : ChanRecord :=
  let snr := min snr maxSnr
  if r.bestSnr ≠ nullSnr then { r with bestSnr := max r.bestSnr snr }
  else { r with bestSnr := snr }

/-- `_p2p_rc_bss_update`. With debugging on, the message about a channel that is not the
record's prints the frequency of the record's channel. -/
def Rc.bssUpdate (W : Wiphy) (debug : Bool) (p : Rc) (c snr : Nat) : Rc :=
  match W.slot c with
  | none => p
  | some i =>
    let channel := (p.picks.tab.record i).channel
    if channel ≠ some c then { p with oops := p.oops || (debug && channel.isNone) }
    else p.setRecords (p.picks.tab.records.modify i fun r => keepSnr r snr)

def Rc.bssInfo (W : Wiphy) (debug : Bool) (p : Rc) (c snr : Nat) : Rc :=
  if p.needUpdated then p.bssUpdate W debug c snr else p

inductive RcAnswer where
  | inProgress
  | again
  | report (freqs : RcType → Option Nat)

def Rc.computed (W : Wiphy) (p : Rc) : Rc :=
  { p with picks := p.picks.compute W, done := true, basis := p.picks.tab.forget }

/-- `ath6kl_p2p_rc_get`; `late` says that the last update is over five minutes old. -/
def Rc.get (W : Wiphy) (p : Rc) (late : Bool) : Rc × RcAnswer :=
  if p.needUpdated then (p, .inProgress)
  else if p.alwaysFresh && late then (p, .again)
  else
    let p := if p.done then p else p.computed W
    ({ p with oops := p.oops || p.picks.dangling }, .report (p.picks.report W))

def Rc.setUser (p : Rc) (type : UserChanType) (list : List Nat) : Rc :=
  let tab := { p.picks.tab with userChanType := type, userChanList := list }
  { p with picks := { p.picks with tab := tab } }.flush

def Rc.config (p : Rc) (freq : Nat) (type : UserChanType) : Rc :=
  let t := p.picks.tab
  if freq ≠ 0 then
    if freq∈t.userChanList then p
    else if t.userChanList.length = maxChanRecord then p
    else p.setUser t.userChanType (t.userChanList ++ [freq])
  else if t.userChanType ≠ type then p.setUser type []
  else p

inductive Event where
  | regUpdate (flags : List ChanFlags)
  | scanStart (localScan scanning allBands : Bool)
  | bssInfo (c snr : Nat)
  | scanComplete (aborted : Bool)
  | config (freq : Nat) (type : UserChanType)
  | get (late : Bool)

def step (W : Wiphy) (debug : Bool) (p : Rc) : Event → Rc
  | .regUpdate flags => p.regUpdate W flags
  | .scanStart l s a => p.scanStart W l s a
  | .bssInfo c snr => p.bssInfo W debug c snr
  | .scanComplete aborted => p.scanCompleteEvent aborted
  | .config freq type => p.config freq type
  | .get late => (p.get W late).1

end Ath6kl.P2pRc
