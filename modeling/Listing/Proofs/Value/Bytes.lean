import Listing.Value.Order
import Mathlib.Data.Char
import Mathlib.Order.Basic

/-!
# Texts in the order of their bytes

Comparing two texts character by character compares what UTF-8 makes of them byte by byte: of two
different characters, the one of the lesser code has the lesser byte where their encodings first differ,
and neither encoding is a part of the other.
-/

namespace Listing.Value

/-! ## Bytes that differ -/

/-- Whether two rows of bytes differ at a place that both have, where the first holds the lesser byte. -/
def Leads : List UInt8 → List UInt8 → Prop
  | x :: xs, y :: ys => x.toNat < y.toNat ∨ x.toNat = y.toNat ∧ Leads xs ys
  | _, _ => False

theorem Leads.compareBytes_append {xs ys : List UInt8} (h : Leads xs ys) (us vs : List UInt8) :
    compareBytes (xs ++ us) (ys ++ vs) = .lt ∧ compareBytes (ys ++ vs) (xs ++ us) = .gt := by
  induction xs generalizing ys with
  | nil => exact h.elim
  | cons x xs ih =>
    cases ys with
    | nil => exact h.elim
    | cons y ys =>
      simp only [compareBytes, List.cons_append, compareRows]
      rcases h with hlt | ⟨heq, hrest⟩
      · simp [Nat.compare_eq_lt.mpr hlt, Nat.compare_eq_gt.mpr hlt]
      · simp only [heq, Nat.compare_eq_eq.mpr, Ordering.eq_then]
        exact ih hrest

theorem compareBytes_append_left (xs us vs : List UInt8) :
    compareBytes (xs ++ us) (xs ++ vs) = compareBytes us vs := by
  induction xs with
  | nil => rfl
  | cons x xs ih =>
    simp only [compareBytes, List.cons_append, compareRows, Nat.compare_eq_eq.mpr, Ordering.eq_then]
    exact ih

/-! ## Characters -/

theorem lt_by_digit (base : Nat) {v w : Nat} (h : v < w) :
    v / base < w / base ∨ v / base = w / base ∧ v % base < w % base := by
  rcases (Nat.div_le_div_right (c := base) h.le).lt_or_eq with hlt | heq
  · exact .inl hlt
  · refine .inr ⟨heq, ?_⟩
    have hv := Nat.div_add_mod v base
    have hw := Nat.div_add_mod w base
    rw [heq] at hv
    omega

theorem leads_utf8EncodeChar {c d : Char} (h : c.toNat < d.toNat) :
    Leads (String.utf8EncodeChar c) (String.utf8EncodeChar d) := by
  have hvalid : ∀ c : Char, c.toNat < 1114112 := by
    intro c
    rcases c.valid with hlow | ⟨-, hhigh⟩
    · exact hlow.trans (by decide)
    · exact hhigh
  have hc := hvalid c
  have hd := hvalid d
  have hval : ∀ c : Char, c.val.toNat = c.toNat := fun _ => rfl
  have hbyte : ∀ n, n < 256 → (UInt8.ofNat n).toNat = n := fun n hn => by
    rw [UInt8.toNat_ofNat', Nat.mod_eq_of_lt hn]
  unfold String.utf8EncodeChar
  simp only [hval]
  generalize c.toNat = v at *
  generalize d.toNat = w at *
  have htop : ∀ n, n < 1114112 → n / 262144 % 8 = n / 262144 := fun n hn =>
    Nat.mod_eq_of_lt (by omega)
  have hlast := lt_by_digit 64 h
  have hthird := @lt_by_digit 64 (v / 64) (w / 64)
  have hsecond := @lt_by_digit 64 (v / 4096) (w / 4096)
  rw [Nat.div_div_eq_div_mul, Nat.div_div_eq_div_mul] at hthird hsecond
  -- a longer encoding starts with a greater byte; two of one length differ in some digit to base 64
  split_ifs <;> simp (disch := omega) only [Leads, hbyte, htop] <;> omega

/-! ## Texts -/

theorem toUTF8_toList (s : String) : s.toUTF8.data.toList = s.toList.flatMap String.utf8EncodeChar := by
  rw [String.toUTF8, ← String.utf8Encode_toList, List.utf8Encode, List.toList_data_toByteArray]

theorem compareTexts_eq_compareBytes (s t : String) :
    compareTexts s t = compareBytes s.toUTF8.data.toList t.toUTF8.data.toList := by
  rw [toUTF8_toList, toUTF8_toList, compareTexts]
  generalize s.toList = cs
  generalize t.toList = ds
  have hempty : ∀ c : Char, ∃ b bs, String.utf8EncodeChar c = b :: bs := fun c =>
    List.exists_cons_of_ne_nil String.utf8EncodeChar_ne_nil
  induction cs generalizing ds with
  | nil =>
    cases ds with
    | nil => rfl
    | cons d ds =>
      obtain ⟨b, bs, hd⟩ := hempty d
      rw [List.flatMap_cons, hd]
      rfl
  | cons c cs ih =>
    cases ds with
    | nil =>
      obtain ⟨b, bs, hc⟩ := hempty c
      rw [List.flatMap_cons, hc]
      rfl
    | cons d ds =>
      rw [compareRows, List.flatMap_cons, List.flatMap_cons]
      rcases lt_trichotomy c.toNat d.toNat with hlt | heq | hgt
      · rw [Nat.compare_eq_lt.mpr hlt, ((leads_utf8EncodeChar hlt).compareBytes_append _ _).1]
        rfl
      · obtain rfl := Char.toNat_inj.mp heq
        rw [Nat.compare_eq_eq.mpr rfl, compareBytes_append_left]
        exact ih ds
      · rw [Nat.compare_eq_gt.mpr hgt, ((leads_utf8EncodeChar hgt).compareBytes_append _ _).2]
        rfl

end Listing.Value
