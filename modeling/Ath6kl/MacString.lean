import Ath6kl.BoardData

/-! MAC addresses as text (main.c): six numbers of two hexadecimal digits with a colon after each but
the last one. The text of a command is not a string, it has a length. -/
namespace Ath6kl.MacString
open Lib.Accesses Lib.Memory
open BoardData (ethAlen hexDigit hexDigits kstrtoul)

section Model

/-- What is returned, the octets that are written from `macaddr` on, and what is read of the text. -/
structure Parsed where
  ret : Int
  macs : List UInt8 := []
  log : List Access := []

/-- `temp` is a string of two characters at most. -/
def temp (string : Mem) (i : Nat) : List UInt8 := (slice string i 2).takeWhile (· ≠ 0)

/-- The loop of `_string_to_mac`. -/
def macLoop (string : Mem) (len i : Nat) : Parsed :=
  if i<len then
    match kstrtoul (temp string i) with
    | none => { ret := -1, log := [.read i 2] }
    | some value =>
      let rest := macLoop string len (i+3)
      { ret := rest.ret
        macs := UInt8.ofNat value::rest.macs
        log := .read i 2::rest.log }
  else { ret := 0 }
termination_by len-i

def stringToMac (string : Option Mem) (len : Nat) : Parsed :=
  match string with
  | none => { ret := -1 }
  | some string => if len<17 then { ret := -1 } else macLoop string len 0

end Model

section Groups
variable {string : Mem} {len : Nat}

/-- The number in group `k` of the text. -/
def number (string : Mem) (k : Nat) : Option Nat := kstrtoul (temp string (3*k))

/-- The loop from group `j` on: it takes `n` groups, and stops at the end of the text or at a group
that is no number. -/
structure Stops (string : Mem) (len j n : Nat) (r : Parsed) : Prop where
  count : r.macs.length = n
  numbers : ∀ k, k<n → 3*(j+k)<len ∧ ∃ v, number string (j+k) = some v ∧
    r.macs[k]? = some (UInt8.ofNat v)
  stop : r.ret = 0 ∧ len ≤ 3*(j+n) ∨ r.ret = -1 ∧ 3*(j+n)<len ∧ number string (j+n) = none
  inside : Safe len r.log ↔ ∀ k, k ≤ n → 3*(j+k)<len → 3*(j+k)+2 ≤ len

theorem Stops.cons {j n value : Nat} {r : Parsed} (h : Stops string len (j+1) n r)
    (hlt : 3*j<len) (hvalue : number string j = some value) :
    Stops string len j (n+1)
      { ret := r.ret, macs := UInt8.ofNat value::r.macs, log := .read (3*j) 2::r.log } := by
  obtain ⟨hcount, hnumbers, hstop, hinside⟩ := h
  have hadd (k : Nat) : j+1+k = j+(k+1) := by omega
  refine ⟨by simp [hcount], fun k hk => ?_, hadd n ▸ hstop, ?_⟩
  · cases k with
    | zero => exact ⟨hlt, value, hvalue, rfl⟩
    | succ k =>
      have hk' := hnumbers k (by omega)
      rw [hadd] at hk'
      exact hk'
  · rw [safe_cons, ok_read, hinside]
    constructor
    · rintro ⟨hfirst, hrest⟩ k hk hlt'
      cases k with
      | zero => exact hfirst
      | succ k =>
        have hk' := hrest k (by omega)
        rw [hadd] at hk'
        exact hk' hlt'
    · intro hall
      refine ⟨hall 0 (Nat.zero_le _) hlt, fun k hk => ?_⟩
      rw [hadd]
      exact hall (k+1) (by omega)

variable (string len) in
theorem macLoop_stops (j : Nat) : ∃ n, Stops string len j n (macLoop string len (3*j)) := by
  generalize hi : 3*j = i
  induction i using macLoop.induct string len generalizing j with
  | case1 i hlt hnone =>
    subst hi
    rw [macLoop, if_pos hlt, hnone]
    refine ⟨0, rfl, fun k hk => absurd hk (Nat.not_lt_zero k), .inr ⟨rfl, hlt, hnone⟩, ?_⟩
    simp only [safe_cons, ok_read, safe_nil, and_true]
    constructor
    · intro h k hk _
      obtain rfl := Nat.le_zero.mp hk
      exact h
    · intro h
      exact h 0 (Nat.le_refl 0) hlt
  | case2 i hlt value hvalue ih =>
    subst hi
    obtain ⟨n, hrest⟩ := ih (j+1) (by omega)
    rw [macLoop, if_pos hlt, hvalue]
    exact ⟨n+1, hrest.cons hlt hvalue⟩
  | case3 i hge =>
    subst hi
    rw [macLoop, if_neg hge]
    refine ⟨0, rfl, fun k hk => absurd hk (Nat.not_lt_zero k), .inl ⟨rfl, by omega⟩, ?_⟩
    refine iff_of_true (safe_nil len) fun k hk hlt => ?_
    omega

end Groups

section Octets
variable {string : Mem} {len : Nat} {a b : UInt8} {x y : Nat}

def octet (a b : UInt8) : Option Nat :=
  (hexDigit a).bind fun x => (hexDigit b).map fun y => 16*x+y

/-- What is no digit: the null byte, the plus sign, and the `x` of a prefix. -/
theorem ne_of_hexDigit (h : hexDigit a = some x) : a ≠ 0 ∧ a ≠ 43 ∧ a ≠ 120 ∧ a ≠ 88 := by
  refine ⟨?_, ?_, ?_, ?_⟩ <;>
  · rintro rfl
    simp [hexDigit] at h

theorem kstrtoul_digits (ha : hexDigit a = some x) (hb : hexDigit b = some y) :
    kstrtoul [a, b] = some (16*x+y) := by
  obtain ⟨-, hplus, -, -⟩ := ne_of_hexDigit ha
  obtain ⟨-, -, hx, hX⟩ := ne_of_hexDigit hb
  have hdigits : hexDigits 0 [a, b] = (16*x+y, []) := by
    simp [hexDigits, ha, hb]
  have hhead : ([a, b] : List UInt8).head? ≠ some 43 := by simpa using hplus
  unfold kstrtoul
  rw [if_neg hhead]
  dsimp only
  split
  · next c rest heq =>
    obtain ⟨-, rfl, rfl⟩ : a = 48 ∧ b = c ∧ [] = rest := by simpa using heq
    simp [hx, hX, hdigits]
  · simp [hdigits]

/-- The text starts with six octets that have colons between them. -/
structure Starts (string : Mem) (len : Nat) : Prop where
  len : 17 ≤ len
  octets : ∀ k, k<ethAlen → (octet (string (3*k)) (string (3*k+1))).isSome
  colons : ∀ k, k+1<ethAlen → string (3*k+2) = 58

theorem number_of_octet {k v : Nat} (h : octet (string (3*k)) (string (3*k+1)) = some v) :
    number string k = some v := by
  obtain ⟨x, hx, h⟩ := Option.bind_eq_some_iff.mp h
  obtain ⟨y, hy, rfl⟩ := Option.map_eq_some_iff.mp h
  have hslice : slice string (3*k) 2 = [string (3*k), string (3*k+1)] := rfl
  rw [number, temp, hslice, List.takeWhile_cons_of_pos (by simpa using (ne_of_hexDigit hx).1),
    List.takeWhile_cons_of_pos (by simpa using (ne_of_hexDigit hy).1)]
  exact kstrtoul_digits hx hy

/-- A text is parsed inside its length and the six octets, exactly if it starts with an address, and
to the values of its octets. -/
structure ParseRight (string : Option Mem) (len : Nat) : Prop where
  array : (stringToMac string len).macs.length ≤ ethAlen
  inside : Safe len (stringToMac string len).log
  starts : (stringToMac string len).ret = 0 ↔ ∃ mem, string = some mem ∧ Starts mem len
  values : (stringToMac string len).ret = 0 → ∀ mem, string = some mem → ∀ k, k<ethAlen →
    (stringToMac string len).macs[k]? =
      (octet (mem (3*k)) (mem (3*k+1))).map UInt8.ofNat

/-- Among the first seven groups there is one that is no number, and it is all inside the text. -/
def Broken (string : Mem) (len : Nat) : Prop :=
  ∃ k, k ≤ ethAlen ∧ 3*k+2 ≤ len ∧ number string k = none

/-- The text ends after the six octets, or the parse of another one does before it leaves them. -/
def Bounded (string : Option Mem) (len : Nat) : Prop :=
  ∀ mem, string = some mem → 17 ≤ len →
    Starts mem len ∧ len ≤ 18 ∨ ¬Starts mem len ∧ Broken mem len

theorem parseRight_of_short {string : Option Mem}
    (h : ∀ mem, string = some mem → len<17) : ParseRight string len := by
  have hshort : stringToMac string len = { ret := -1 } := by
    cases string with
    | none => rfl
    | some mem => exact if_pos (h mem rfl)
  have hne : (-1 : Int) ≠ 0 := by decide
  refine ⟨?_, ?_, ?_, ?_⟩ <;> rw [hshort]
  · exact Nat.zero_le _
  · exact safe_nil len
  · refine iff_of_false hne ?_
    rintro ⟨mem, hmem, hstarts⟩
    exact absurd (h mem hmem) (Nat.not_lt.mpr hstarts.len)
  · exact fun hret => absurd hret hne

section Text
variable {n : Nat} (h : Stops string len 0 n (stringToMac (some string) len))

include h

theorem parseRight_of_starts (hstarts : Starts string len) (hend : len ≤ 18) :
    ParseRight (some string) len := by
  obtain ⟨hcount, hnumbers, hstop, hinside⟩ := h
  simp only [Nat.zero_add] at hnumbers hstop hinside
  have hlen := hstarts.len
  have hsome (k : Nat) (hk : k<ethAlen) : ∃ v, octet (string (3*k)) (string (3*k+1)) = some v :=
    Option.isSome_iff_exists.mp (hstarts.octets k hk)
  have hsix : ethAlen = 6 := rfl
  have hle : n ≤ 6 := by
    by_contra hgt
    have hlast := (hnumbers (n-1) (by omega)).1
    omega
  have hret : (stringToMac (some string) len).ret = 0 := by
    obtain ⟨hret, -⟩ | ⟨-, hlt, hnone⟩ := hstop
    · exact hret
    · obtain ⟨v, hv⟩ := hsome n (by omega)
      rw [number_of_octet hv] at hnone
      cases hnone
  refine ⟨by omega, hinside.mpr fun k _ hlt => by omega,
    iff_of_true hret ⟨string, rfl, hstarts⟩, fun _ mem hmem k hk => ?_⟩
  obtain rfl := Option.some.inj hmem
  obtain ⟨v, hv⟩ := hsome k hk
  have hkn : k<n := by
    obtain ⟨-, hge⟩ | ⟨hne, -⟩ := hstop
    · omega
    · rw [hret] at hne
      exact absurd hne (by decide)
  obtain ⟨-, w, hw, hmac⟩ := hnumbers k hkn
  rw [number_of_octet hv] at hw
  obtain rfl := Option.some.inj hw
  rw [hmac, hv]
  rfl

theorem parseRight_of_broken (hstarts : ¬Starts string len) (hbroken : Broken string len) :
    ParseRight (some string) len := by
  obtain ⟨hcount, hnumbers, hstop, hinside⟩ := h
  simp only [Nat.zero_add] at hnumbers hstop hinside
  obtain ⟨k, hk, hfits, hnone⟩ := hbroken
  have hle : n ≤ k := by
    by_contra hgt
    obtain ⟨-, v, hv, -⟩ := hnumbers k (by omega)
    rw [hnone] at hv
    cases hv
  have hret : (stringToMac (some string) len).ret ≠ 0 := by
    obtain ⟨-, hge⟩ | ⟨hret, -⟩ := hstop
    · omega
    · rw [hret]
      decide
  refine ⟨by omega, hinside.mpr fun m hm _ => by omega, iff_of_false hret ?_,
    fun hzero => absurd hzero hret⟩
  rintro ⟨mem, hmem, h⟩
  obtain rfl := Option.some.inj hmem
  exact hstarts h

theorem ParseRight.bounded (hright : ParseRight (some string) len) :
    Starts string len ∧ len ≤ 18 ∨ ¬Starts string len ∧ Broken string len := by
  obtain ⟨hcount, -, hstop, hinside⟩ := h
  simp only [Nat.zero_add] at hstop hinside
  have harray := hright.array
  have hreads := hinside.mp hright.inside
  have hsix : ethAlen = 6 := rfl
  by_cases hstarts : Starts string len
  · have hret := hright.starts.mpr ⟨string, rfl, hstarts⟩
    obtain ⟨-, hge⟩ | ⟨hne, -⟩ := hstop
    · exact .inl ⟨hstarts, by omega⟩
    · rw [hret] at hne
      exact absurd hne (by decide)
  · obtain ⟨hret, -⟩ | ⟨-, hlt, hnone⟩ := hstop
    · obtain ⟨mem, hmem, h⟩ := hright.starts.mp hret
      obtain rfl := Option.some.inj hmem
      exact absurd h hstarts
    · exact .inr ⟨hstarts, n, by omega, hreads n (Nat.le_refl n) hlt, hnone⟩

end Text

/-- A text is parsed right exactly if the parse ends in time. -/
theorem parse_right_iff (string : Option Mem) (len : Nat) :
    ParseRight string len ↔ Bounded string len := by
  by_cases hshort : ∀ mem, string = some mem → len<17
  · refine iff_of_true (parseRight_of_short hshort) fun mem hmem hlen => ?_
    exact absurd (hshort mem hmem) (Nat.not_lt.mpr hlen)
  · obtain ⟨mem, hmem⟩ := not_forall.mp hshort
    obtain ⟨rfl, hlt⟩ : string = some mem ∧ ¬len<17 := by simpa using hmem
    have hlen : 17 ≤ len := Nat.not_lt.mp hlt
    obtain ⟨n, hn⟩ := macLoop_stops mem len 0
    have hloop : stringToMac (some mem) len = macLoop mem len (3*0) := if_neg hlt
    rw [← hloop] at hn
    constructor
    · intro hright mem' hmem' _
      obtain rfl := Option.some.inj hmem'
      exact hright.bounded hn
    · intro hbounded
      obtain ⟨hstarts, hend⟩ | ⟨hstarts, hbroken⟩ := hbounded mem rfl hlen
      · exact parseRight_of_starts hn hstarts hend
      · exact parseRight_of_broken hn hstarts hbroken

def seven : Mem := ofList [48, 48, 58, 49, 49, 58, 50, 50, 58, 51, 51, 58, 52, 52, 58, 53, 53, 58,
  54, 54]

theorem seven_not_right : ¬ParseRight (some seven) 20 := by
  intro hright
  obtain ⟨n, hn⟩ := macLoop_stops seven 20 0
  obtain ⟨-, hend⟩ | ⟨-, k, hk, -, hnone⟩ := hright.bounded hn
  · exact absurd hend (by decide)
  · have hall : ∀ k, k<7 → number seven k ≠ none := by decide
    exact hall k (Nat.lt_succ_of_le hk) hnone

end Octets

section Strings
variable {str : List UInt8} {i : Nat}

theorem temp_ofList (h : ∀ c∈str, c ≠ 0) (hi : i<str.length) :
    temp (ofList str) i = BoardData.group str i := by
  have hslice : slice (ofList str) i 2 = [ofList str i, ofList str (i+1)] := rfl
  have hfirst : ofList str i = str[i] := by simp [ofList, hi]
  have hne : str[i] ≠ 0 := h _ (List.getElem_mem hi)
  rw [temp, hslice, hfirst, List.takeWhile_cons_of_pos (by simpa using hne), BoardData.group,
    List.drop_eq_getElem_cons hi, List.take_succ_cons]
  congr 1
  by_cases hnext : i+1<str.length
  · have hsecond : ofList str (i+1) = str[i+1] := by simp [ofList, hnext]
    have hne' : str[i+1] ≠ 0 := h _ (List.getElem_mem hnext)
    rw [hsecond, List.takeWhile_cons_of_pos (by simpa using hne'),
      List.drop_eq_getElem_cons hnext, List.take_succ_cons]
    rfl
  · have hend : ofList str (i+1) = 0 := by simp [ofList, hnext]
    rw [hend, List.drop_eq_nil_of_le (by omega)]
    rfl

theorem macLoop_octets (h : ∀ c∈str, c ≠ 0) (fuel : Nat) (hfuel : str.length ≤ i+fuel) :
    (macLoop (ofList str) str.length i).macs = (BoardData.octets str fuel i).1 ∧
      ((macLoop (ofList str) str.length i).ret = 0 ↔
        (BoardData.octets str fuel i).2 = true) := by
  induction fuel generalizing i with
  | zero =>
    rw [macLoop, if_neg (by omega)]
    exact ⟨rfl, by simp [BoardData.octets]⟩
  | succ fuel ih =>
    rw [macLoop, BoardData.octets]
    by_cases hi : i<str.length
    · rw [if_pos hi, if_pos hi, temp_ofList h hi]
      cases kstrtoul (BoardData.group str i) with
      | none => exact ⟨rfl, by simp⟩
      | some value =>
        obtain ⟨hmacs, hret⟩ := ih (i := i+3) (by omega)
        exact ⟨by simp [hmacs], hret⟩
    · rw [if_neg hi, if_neg hi]
      exact ⟨rfl, by simp⟩

/-- On a string without a zero byte the callers of the board data see the same function. -/
theorem stringToMac_eq (h : ∀ c∈str, c ≠ 0) :
    (stringToMac (some (ofList str)) str.length).macs = (BoardData.stringToMac str).1 ∧
      ((stringToMac (some (ofList str)) str.length).ret = 0 ↔
        (BoardData.stringToMac str).2 = true) := by
  rw [stringToMac, BoardData.stringToMac]
  split_ifs with hlen
  · exact ⟨rfl, by simp⟩
  · exact macLoop_octets h str.length (by omega)

end Strings

end Ath6kl.MacString
