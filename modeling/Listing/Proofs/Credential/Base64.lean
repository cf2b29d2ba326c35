import Listing.Credential.Base64
import Listing.Proofs.Number.Grammar

/-!
# Reading base64 back

What bytes are written as is read as these bytes, and nothing else is: a text is read whole if it is what
some bytes are written as, and otherwise not at all.
-/

namespace Listing.Base64

open Numeral (Stops stops_dropWhile takeWhile_append_of_stops drop_length_takeWhile)

/-! ## Characters -/

def isCode (c : Char) : Bool := (valueOf? c).isSome

theorem valueOf?_charOf {n : Nat} (hn : n < 64) : valueOf? (charOf n) = some n := by
  have hall : ∀ n ∈ List.range 64, valueOf? (charOf n) = some n := by decide
  exact hall n (List.mem_range.mpr hn)

theorem valueOf?_eq_some {c : Char} {n : Nat} (h : valueOf? c = some n) : n < 64 ∧ charOf n = c := by
  obtain ⟨hn, hc, -⟩ := List.idxOf?_eq_some_iff.mp h
  refine ⟨hn, ?_⟩
  rw [charOf, List.getD_eq_getElem?_getD, List.getElem?_eq_getElem hn, hc, Option.getD_some]

theorem isCode_charOf {n : Nat} (hn : n < 64) : isCode (charOf n) = true := by
  rw [isCode, valueOf?_charOf hn]
  rfl

theorem filterMap_charOf {ns : List Nat} (h : ∀ n ∈ ns, n < 64) :
    (ns.map charOf).filterMap valueOf? = ns := by
  induction ns with
  | nil => rfl
  | cons n ns ih =>
    obtain ⟨hn, hns⟩ := List.forall_mem_cons.mp h
    rw [List.map_cons, List.filterMap_cons_some (valueOf?_charOf hn), ih hns]

theorem map_charOf_values {cs : List Char} (h : ∀ c ∈ cs, isCode c = true) :
    (∀ n ∈ cs.filterMap valueOf?, n < 64) ∧ (cs.filterMap valueOf?).map charOf = cs := by
  induction cs with
  | nil => exact ⟨by simp, rfl⟩
  | cons c cs ih =>
    obtain ⟨hc, hcs⟩ := List.forall_mem_cons.mp h
    obtain ⟨n, hn⟩ := Option.isSome_iff_exists.mp hc
    obtain ⟨hlt, hchar⟩ := valueOf?_eq_some hn
    obtain ⟨hall, hmap⟩ := ih hcs
    rw [List.filterMap_cons_some hn]
    exact ⟨List.forall_mem_cons.mpr ⟨hlt, hall⟩, by rw [List.map_cons, hchar, hmap]⟩

/-! ## Bytes -/

/-- The values of six bits that bytes are written in. -/
def sextets : List UInt8 → List Nat
  | a :: b :: c :: rest =>
    let n := (a.toNat * 256 + b.toNat) * 256 + c.toNat
    n / 262144 :: n / 4096 % 64 :: n / 64 % 64 :: n % 64 :: sextets rest
  | [a, b] =>
    let n := (a.toNat * 256 + b.toNat) * 4
    [n / 4096, n / 64 % 64, n % 64]
  | [a] => [a.toNat / 4, a.toNat * 16 % 64]
  | [] => []

theorem encode_eq (bytes : List UInt8) : encode bytes = (sextets bytes).map charOf := by
  fun_induction sextets bytes with
  | case1 a b c rest n ih => rw [encode, ih]; rfl
  | case2 a b n => rfl
  | case3 a => rfl
  | case4 => rfl

theorem sextets_lt (bytes : List UInt8) : ∀ n ∈ sextets bytes, n < 64 := by
  fun_induction sextets bytes with
  | case1 a b c rest n ih =>
    have ha := a.toNat_lt
    have hb := b.toNat_lt
    have hc := c.toNat_lt
    simp only [List.forall_mem_cons]
    exact ⟨by omega, by omega, by omega, by omega, ih⟩
  | case2 a b n =>
    have ha := a.toNat_lt
    have hb := b.toNat_lt
    simp only [List.forall_mem_cons]
    exact ⟨by omega, by omega, by omega, by simp⟩
  | case3 a =>
    have ha := a.toNat_lt
    simp only [List.forall_mem_cons]
    exact ⟨by omega, by omega, by simp⟩
  | case4 => simp

theorem toNat_toUInt8 {n : Nat} (h : n < 256) : n.toUInt8.toNat = n := by
  rw [Nat.toUInt8_eq, UInt8.toNat_ofNat', Nat.mod_eq_of_lt h]

theorem toUInt8_eq {n : Nat} {b : UInt8} (h : n = b.toNat) : n.toUInt8 = b := by
  rw [h, Nat.toUInt8_eq, UInt8.ofNat_toNat]

theorem bytesOf?_sextets (bytes : List UInt8) : bytesOf? (sextets bytes) = some bytes := by
  fun_induction sextets bytes with
  | case1 a b c rest n ih =>
    have ha := a.toNat_lt
    have hb := b.toNat_lt
    have hc := c.toNat_lt
    have hn : ((n / 262144 * 64 + n / 4096 % 64) * 64 + n / 64 % 64) * 64 + n % 64 = n := by omega
    rw [bytesOf?, ih, hn, toUInt8_eq (b := a) (by omega), toUInt8_eq (b := b) (by omega),
      toUInt8_eq (b := c) (by omega)]
    rfl
  | case2 a b n =>
    have ha := a.toNat_lt
    have hb := b.toNat_lt
    have hn : (n / 4096 * 64 + n / 64 % 64) * 64 + n % 64 = n := by omega
    rw [bytesOf?, hn, if_pos (by omega), toUInt8_eq (b := a) (by omega), toUInt8_eq (b := b) (by omega)]
  | case3 a =>
    have ha := a.toNat_lt
    rw [bytesOf?, if_pos (by omega), toUInt8_eq (b := a) (by omega)]
  | case4 => rfl

theorem sextets_of_bytesOf? {ns : List Nat} {bytes : List UInt8} (hns : ∀ n ∈ ns, n < 64)
    (h : bytesOf? ns = some bytes) : sextets bytes = ns := by
  fun_induction bytesOf? ns generalizing bytes with
  | case1 a b c d rest n =>
    rename_i ih
    obtain ⟨others, hothers, heq⟩ := Option.bind_eq_some_iff.mp h
    obtain rfl := Option.some.inj heq
    simp only [List.forall_mem_cons] at hns
    obtain ⟨ha, hb, hc, hd, hrest⟩ := hns
    rw [sextets, ih hrest hothers, toNat_toUInt8 (by omega), toNat_toUInt8 (by omega),
      toNat_toUInt8 (by omega)]
    simp only [List.cons.injEq, and_true]
    omega
  | case2 a b c n =>
    obtain rfl := Option.some.inj h
    simp only [List.forall_mem_cons] at hns
    rw [sextets, toNat_toUInt8 (by omega), toNat_toUInt8 (by omega)]
    simp only [List.cons.injEq, and_true]
    omega
  | case4 a b hzero =>
    obtain rfl := Option.some.inj h
    simp only [List.forall_mem_cons] at hns
    rw [sextets, toNat_toUInt8 (by omega)]
    simp only [List.cons.injEq, and_true]
    omega
  | case7 =>
    obtain rfl := Option.some.inj h
    rfl
  | case3 | case5 | case6 => cases h

/-- Exactly what bytes are written as is read as these bytes, up to the first character that stands for no
value. -/
theorem read?_eq_some_iff {cs rest : List Char} {bytes : List UInt8} :
    read? cs = some (bytes, rest) ↔ cs = encode bytes ++ rest ∧ Stops isCode rest := by
  have hread : read? cs = do
      return (← bytesOf? ((cs.takeWhile isCode).filterMap valueOf?), cs.dropWhile isCode) := by
    rw [← drop_length_takeWhile]
    rfl
  rw [hread]
  constructor
  · intro h
    obtain ⟨found, hfound, heq⟩ := Option.bind_eq_some_iff.mp h
    obtain ⟨rfl, rfl⟩ := Prod.mk.inj (Option.some.inj heq)
    obtain ⟨hlt, hmap⟩ := map_charOf_values (List.all_eq_true.mp (List.all_takeWhile (l := cs)))
    refine ⟨?_, stops_dropWhile isCode cs⟩
    rw [encode_eq, sextets_of_bytesOf? hlt hfound, hmap, List.takeWhile_append_dropWhile]
  · rintro ⟨rfl, hstops⟩
    have hcodes : ∀ c ∈ encode bytes, isCode c = true := by
      rw [encode_eq, List.forall_mem_map]
      exact fun n hn => isCode_charOf (sextets_lt bytes n hn)
    obtain ⟨htake, hdrop⟩ := takeWhile_append_of_stops hcodes hstops
    rw [htake, hdrop, encode_eq, filterMap_charOf (sextets_lt bytes), bytesOf?_sextets]
    rfl

end Listing.Base64
