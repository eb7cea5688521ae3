import Mathlib.Tactic.SplitIfs
import TranscodingEngines.Text.Utf8

/-!
# UTF-8 read back

The bytes of a character are scanned as that character, whatever follows them, so the bytes of a text
are read as the text.
-/

set_option autoImplicit false

namespace TranscodingEngines.Text

/-! ## Single bytes -/

/-- The byte that continues a character with six bits of its value. -/
def tailByte (bits : Nat) : UInt8 := UInt8.ofNat (bits + 128)

theorem tailByte_spec {m : Nat} (h : m < 64) :
    isTail (tailByte m) = true ∧ tailBits (tailByte m) = m := by
  have hAll : ∀ m < 64, isTail (tailByte m) = true ∧ tailBits (tailByte m) = m := by decide
  exact hAll m h

theorem scanTails_tailByte {m : Nat} (h : m < 64) (left used value : Nat) (rest : List UInt8) :
    scanTails (left + 1) used value (tailByte m :: rest)
      = scanTails left (used + 1) (value * 64 + m) rest := by
  obtain ⟨hTail, hBits⟩ := tailByte_spec h
  rw [scanTails, if_pos hTail, hBits]

/-- The byte starts a character of more than one byte with the first bits of its value, and a second
byte with the next six bits may follow it. -/
def Leads (b : UInt8) (left bits next : Nat) : Prop :=
  tailCount b = some (left + 1) ∧ b.toNat % Nat.pow 2 (5 - left) = bits ∧
    (secondRange b).1 ≤ tailByte next ∧ tailByte next ≤ (secondRange b).2

instance (b : UInt8) (left bits next : Nat) : Decidable (Leads b left bits next) :=
  inferInstanceAs (Decidable (_ ∧ _))

theorem Leads.scan_eq {b : UInt8} {left bits next : Nat} (h : Leads b left bits next)
    (hNext : next < 64) (rest : List UInt8) :
    scan b (tailByte next :: rest) = scanTails left 1 (bits * 64 + next) rest := by
  obtain ⟨hCount, hBits, hLow, hHigh⟩ := h
  rw [scan, hCount]
  simp only [hBits, hLow, hHigh, decide_true, Bool.and_self, if_true, (tailByte_spec hNext).2]

theorem leads_two {bits next : Nat} (hBits : bits < 32) (hNext : next < 64) (hLow : 2 ≤ bits) :
    Leads (UInt8.ofNat (bits + 192)) 0 bits next := by
  have hAll : ∀ n < 32, ∀ m < 64, 2 ≤ n → Leads (UInt8.ofNat (n + 192)) 0 n m := by decide +kernel
  exact hAll bits hBits next hNext hLow

theorem leads_three {bits next : Nat} (hBits : bits < 16) (hNext : next < 64)
    (hLow : bits = 0 → 32 ≤ next) (hGap : bits = 13 → next < 32) :
    Leads (UInt8.ofNat (bits + 224)) 1 bits next := by
  have hAll : ∀ n < 16, ∀ m < 64, (n = 0 → 32 ≤ m) → (n = 13 → m < 32) →
      Leads (UInt8.ofNat (n + 224)) 1 n m := by decide +kernel
  exact hAll bits hBits next hNext hLow hGap

theorem leads_four {bits next : Nat} (hBits : bits < 5) (hNext : next < 64)
    (hLow : bits = 0 → 16 ≤ next) (hHigh : bits = 4 → next < 16) :
    Leads (UInt8.ofNat (bits + 240)) 2 bits next := by
  have hAll : ∀ n < 5, ∀ m < 64, (n = 0 → 16 ≤ m) → (n = 4 → m < 16) →
      Leads (UInt8.ofNat (n + 240)) 2 n m := by decide +kernel
  exact hAll bits hBits next hNext hLow hHigh

/-! ## Characters -/

/-- The bytes are scanned as the character, whatever follows them. -/
def Scans (c : Char) (found : List UInt8) : Prop :=
  ∃ b tail, found = b :: tail ∧ ∀ rest, scan b (tail ++ rest) = ⟨some c, tail.length⟩

theorem scans_one {v : Nat} (h : v < 128) : Scans (Char.ofNat v) [UInt8.ofNat v] := by
  have hAll : ∀ n < 128, tailCount (UInt8.ofNat n) = some 0 ∧ (UInt8.ofNat n).toNat = n := by
    decide +kernel
  obtain ⟨hCount, hValue⟩ := hAll v h
  refine ⟨_, [], rfl, fun rest => ?_⟩
  rw [scan, hCount, hValue]
  rfl

theorem scans_two {v : Nat} (hLow : 128 ≤ v) (hHigh : v < 2048) :
    Scans (Char.ofNat v) [UInt8.ofNat (v / 64 % 32 + 192), tailByte (v % 64)] := by
  have hLeads : Leads (UInt8.ofNat (v / 64 % 32 + 192)) 0 (v / 64 % 32) (v % 64) :=
    leads_two (by omega) (by omega) (by omega)
  have hValue : v / 64 % 32 * 64 + v % 64 = v := by omega
  refine ⟨_, _, rfl, fun rest => ?_⟩
  rw [List.cons_append, hLeads.scan_eq (by omega), hValue]
  rfl

theorem scans_three {v : Nat} (hLow : 2048 ≤ v) (hHigh : v < 65536)
    (hGap : v < 55296 ∨ 57343 < v) :
    Scans (Char.ofNat v)
      [UInt8.ofNat (v / 4096 % 16 + 224), tailByte (v / 64 % 64), tailByte (v % 64)] := by
  have hLeads : Leads (UInt8.ofNat (v / 4096 % 16 + 224)) 1 (v / 4096 % 16) (v / 64 % 64) :=
    leads_three (by omega) (by omega) (by omega) (by omega)
  have hValue : (v / 4096 % 16 * 64 + v / 64 % 64) * 64 + v % 64 = v := by omega
  refine ⟨_, _, rfl, fun rest => ?_⟩
  rw [List.cons_append, hLeads.scan_eq (by omega), List.cons_append, scanTails_tailByte (by omega),
    hValue]
  rfl

theorem scans_four {v : Nat} (hLow : 65536 ≤ v) (hHigh : v < 1114112) :
    Scans (Char.ofNat v)
      [UInt8.ofNat (v / 262144 % 8 + 240), tailByte (v / 4096 % 64), tailByte (v / 64 % 64),
        tailByte (v % 64)] := by
  have hLeads : Leads (UInt8.ofNat (v / 262144 % 8 + 240)) 2 (v / 262144 % 8) (v / 4096 % 64) :=
    leads_four (by omega) (by omega) (by omega) (by omega)
  have hValue : ((v / 262144 % 8 * 64 + v / 4096 % 64) * 64 + v / 64 % 64) * 64 + v % 64 = v := by
    omega
  refine ⟨_, _, rfl, fun rest => ?_⟩
  rw [List.cons_append, hLeads.scan_eq (by omega), List.cons_append, scanTails_tailByte (by omega),
    List.cons_append, scanTails_tailByte (by omega), hValue]
  rfl

theorem scans_utf8EncodeChar (c : Char) : Scans c (String.utf8EncodeChar c) := by
  have hValid : c.toNat < 55296 ∨ 57343 < c.toNat ∧ c.toNat < 1114112 := c.valid
  have hScans : Scans (Char.ofNat c.toNat) (String.utf8EncodeChar c) := by
    rw [String.utf8EncodeChar]
    change Scans (Char.ofNat c.toNat) (if c.toNat ≤ 127 then _ else if c.toNat ≤ 2047 then _
      else if c.toNat ≤ 65535 then _ else _)
    split_ifs with hOne hTwo hThree
    · exact scans_one (by omega)
    · exact scans_two (by omega) (by omega)
    · exact scans_three (by omega) (by omega) (by omega)
    · exact scans_four (by omega) (by omega)
  rwa [Char.ofNat_toNat] at hScans

/-! ## Texts -/

theorem decode?_encode (cs : List Char) : decode? (encode cs) = some cs := by
  induction cs with
  | nil => rw [encode, List.flatMap_nil, decode?]
  | cons c cs ih =>
    obtain ⟨b, tail, hBytes, hScan⟩ := scans_utf8EncodeChar c
    have hEncode : encode (c :: cs) = b :: (tail ++ encode cs) := by
      rw [encode, List.flatMap_cons, hBytes]
      rfl
    rw [hEncode, decode?, hScan]
    simp only [List.drop_left, ih]
    rfl

end TranscodingEngines.Text
