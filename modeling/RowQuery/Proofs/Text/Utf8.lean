import RowQuery.Text.Utf8

/-!
# UTF-8 read back

The reader is a machine, so octets are fed to it one after the other. The octets of a character
leave nothing pending and settle that character alone; so characters are read back from their UTF-8
form.
-/

namespace RowQuery.Utf8

set_option autoImplicit false

/-- What octets add while a character may be pending, and what is pending after them. -/
def feed (pending : Option Pending) : Octets → List Char × Option Pending
  | [] => ([], pending)
  | b :: bs =>
    let s := step pending b.toNat
    let rest := feed s.2 bs
    (s.1 ++ rest.1, rest.2)

/-- Octets may be read in two portions. -/
theorem feed_append (pending : Option Pending) (as bs : Octets) :
    feed pending (as ++ bs) =
      ((feed pending as).1 ++ (feed (feed pending as).2 bs).1,
        (feed (feed pending as).2 bs).2) := by
  induction as generalizing pending with
  | nil => rfl
  | cons a as ih => simp only [List.cons_append, feed, ih, List.append_assoc]

theorem decodeFrom_eq_feed (pending : Option Pending) (bs : Octets) :
    decodeFrom pending bs = (feed pending bs).1 ++ finish (feed pending bs).2 := by
  induction bs generalizing pending with
  | nil => rfl
  | cons b bs ih => simp only [decodeFrom, feed, ih, List.append_assoc]

/-! ## One character -/

theorem lead_one {b : Nat} (h : b < 0x80) : lead b = .whole (Char.ofNat b) := if_pos h

theorem lead_two {x : Nat} (hl : 0x02 ≤ x) (hh : x < 0x20) :
    lead (x + 0xC0) = .opens ⟨x, 1, 0x80, 0xBF⟩ := by
  unfold lead
  rw [if_neg (by omega), if_neg (by omega), if_pos (by omega), Nat.add_sub_cancel]

theorem lead_three {x : Nat} (h : x < 0x10) :
    lead (x + 0xE0) =
      .opens ⟨x, 2, if x = 0 then 0xA0 else 0x80, if x = 0xD then 0x9F else 0xBF⟩ := by
  have hlow : x + 0xE0 = 0xE0 ↔ x = 0 := by omega
  have hhigh : x + 0xE0 = 0xED ↔ x = 0xD := by omega
  unfold lead
  rw [if_neg (by omega), if_neg (by omega), if_neg (by omega), if_pos (by omega),
    Nat.add_sub_cancel]
  simp only [hlow, hhigh]

theorem lead_four {x : Nat} (h : x < 0x05) :
    lead (x + 0xF0) =
      .opens ⟨x, 3, if x = 0 then 0x90 else 0x80, if x = 4 then 0x8F else 0xBF⟩ := by
  have hlow : x + 0xF0 = 0xF0 ↔ x = 0 := by omega
  have hhigh : x + 0xF0 = 0xF4 ↔ x = 4 := by omega
  unfold lead
  rw [if_neg (by omega), if_neg (by omega), if_neg (by omega), if_neg (by omega), if_pos (by omega),
    Nat.add_sub_cancel]
  simp only [hlow, hhigh]

/-- The last octet of a pending character. -/
theorem step_last {value low high x : Nat} (hl : low ≤ x + 0x80) (hh : x + 0x80 ≤ high) :
    step (some ⟨value, 1, low, high⟩) (x + 0x80) = ([Char.ofNat (value * 0x40 + x)], none) := by
  simp [step, hl, hh]

/-- An octet inside a pending character. -/
theorem step_more {value owed low high x : Nat} (hl : low ≤ x + 0x80) (hh : x + 0x80 ≤ high)
    (ho : owed ≠ 1) :
    step (some ⟨value, owed, low, high⟩) (x + 0x80) =
      ([], some ⟨value * 0x40 + x, owed - 1, 0x80, 0xBF⟩) := by
  simp [step, hl, hh, ho]

theorem toNat_octet {n : Nat} (hn : n < 256) : (UInt8.ofNat n).toNat = n :=
  UInt8.toNat_ofNat_of_lt' hn

theorem feed_one {v : Nat} (h : v < 0x80) : feed none [UInt8.ofNat v] = ([Char.ofNat v], none) := by
  simp only [feed, toNat_octet (n := v) (by omega), step, start, lead_one h]
  rfl

theorem feed_two {v : Nat} (hl : 0x80 ≤ v) (hh : v < 0x800) :
    feed none [UInt8.ofNat (v / 64 % 32 + 192), UInt8.ofNat (v % 64 + 128)] =
      ([Char.ofNat v], none) := by
  have hv : v / 64 % 32 * 0x40 + v % 64 = v := by omega
  simp only [feed, toNat_octet (n := v / 64 % 32 + 192) (by omega),
    toNat_octet (n := v % 64 + 128) (by omega)]
  rw [step, start, lead_two (by omega) (by omega)]
  dsimp only
  rw [step_last (by omega) (by omega), hv]
  rfl

theorem feed_three {v : Nat} (hl : 0x800 ≤ v) (hh : v < 0x10000)
    (hs : v < 0xD800 ∨ 0xDFFF < v) :
    feed none [UInt8.ofNat (v / 4096 % 16 + 224), UInt8.ofNat (v / 64 % 64 + 128),
      UInt8.ofNat (v % 64 + 128)] = ([Char.ofNat v], none) := by
  have hv : (v / 4096 % 16 * 0x40 + v / 64 % 64) * 0x40 + v % 64 = v := by omega
  simp only [feed, toNat_octet (n := v / 4096 % 16 + 224) (by omega),
    toNat_octet (n := v / 64 % 64 + 128) (by omega), toNat_octet (n := v % 64 + 128) (by omega)]
  rw [step, start, lead_three (by omega)]
  dsimp only
  rw [step_more (by split <;> omega) (by split <;> omega) (by decide)]
  dsimp only
  rw [step_last (by omega) (by omega), hv]
  rfl

theorem feed_four {v : Nat} (hl : 0x10000 ≤ v) (hh : v < 0x110000) :
    feed none [UInt8.ofNat (v / 262144 % 8 + 240), UInt8.ofNat (v / 4096 % 64 + 128),
      UInt8.ofNat (v / 64 % 64 + 128), UInt8.ofNat (v % 64 + 128)] = ([Char.ofNat v], none) := by
  have hv :
      ((v / 262144 % 8 * 0x40 + v / 4096 % 64) * 0x40 + v / 64 % 64) * 0x40 + v % 64 = v := by
    omega
  simp only [feed, toNat_octet (n := v / 262144 % 8 + 240) (by omega),
    toNat_octet (n := v / 4096 % 64 + 128) (by omega),
    toNat_octet (n := v / 64 % 64 + 128) (by omega), toNat_octet (n := v % 64 + 128) (by omega)]
  rw [step, start, lead_four (by omega)]
  dsimp only
  rw [step_more (by split <;> omega) (by split <;> omega) (by decide)]
  dsimp only
  rw [step_more (by omega) (by omega) (by decide)]
  dsimp only
  rw [step_last (by omega) (by omega), hv]
  rfl

/-- The form of a character settles it and leaves nothing pending. The narrower bounds of some leads
hold because the number is neither small enough for a shorter form nor a surrogate half. -/
theorem feed_utf8EncodeChar (c : Char) : feed none (String.utf8EncodeChar c) = ([c], none) := by
  have hvalid : c.val.toNat < 0xD800 ∨ 0xDFFF < c.val.toNat ∧ c.val.toNat < 0x110000 := c.valid
  have hc : Char.ofNat c.val.toNat = c := Char.ofNat_toNat c
  have hfeed : feed none (String.utf8EncodeChar c) = ([Char.ofNat c.val.toNat], none) := by
    simp only [String.utf8EncodeChar]
    split
    · exact feed_one (by omega)
    · split
      · exact feed_two (by omega) (by omega)
      · split
        · exact feed_three (by omega) (by omega) (by omega)
        · exact feed_four (by omega) (by omega)
  rw [hfeed, hc]

/-- Characters leave nothing pending. -/
theorem feed_encode (cs : List Char) : feed none (encode cs) = (cs, none) := by
  induction cs with
  | nil => rfl
  | cons c cs ih =>
    rw [encode, List.flatMap_cons, feed_append, feed_utf8EncodeChar]
    change ([c] ++ (feed none (encode cs)).1, (feed none (encode cs)).2) = _
    rw [ih]
    rfl

/-- Characters are read back from their UTF-8 form. -/
theorem decode_encode (cs : List Char) : decode (encode cs) = cs := by
  rw [decode, decodeFrom_eq_feed, feed_encode, finish, List.append_nil]

end RowQuery.Utf8
