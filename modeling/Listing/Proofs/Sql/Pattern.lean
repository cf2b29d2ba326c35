import Listing.Predicate.Evaluation
import Listing.Sql.Truth
import Mathlib.Data.List.Infix
import Mathlib.Data.List.TakeWhile

/-!
# What a search finds

The pattern of a search matches the texts that hold the text searched for at the place that is asked
for, where ASCII letters of either case are taken for the same. This is so of texts without a character
of code zero, which would end them. On ASCII texts the other two ways of disregarding case, folding and
lower case, come to the same.
-/

namespace Listing

/-! ## ASCII texts -/

/-- Whether a search sees all of a text: no character of code zero ends it. -/
def Text.IsSeen (s : String) : Prop := ∀ c ∈ s.toList, 0 < c.toNat

instance (s : String) : Decidable (Text.IsSeen s) := List.decidableBAll _ _

/-- Whether a text has ASCII characters only, and none of code zero. -/
def Text.IsAscii (s : String) : Prop := ∀ c ∈ s.toList, 0 < c.toNat ∧ c.toNat < 128

instance (s : String) : Decidable (Text.IsAscii s) := List.decidableBAll _ _

namespace Text

theorem IsAscii.isSeen {s : String} (h : IsAscii s) : IsSeen s := fun c hc => (h c hc).1

/-- The characters of a text, with ASCII letters in lower case if asked for. -/
def cased (fold : Bool) (s : String) : List Char :=
  if fold then s.toList.map Sql.Cell.lowerAscii else s.toList

/-- What holds of each of the codes holds of every ASCII character. -/
theorem forall_ascii {P : Char → Prop} (h : ∀ n : Fin 128, P (Char.ofNat n)) {c : Char}
    (hc : c.toNat < 128) : P c := by
  have hp := h ⟨c.toNat, hc⟩
  rwa [Char.ofNat_toNat] at hp

theorem toLower_eq_lowerAscii {c : Char} (h : c.toNat < 128) :
    c.toLower = Sql.Cell.lowerAscii c :=
  forall_ascii (P := fun c => c.toLower = Sql.Cell.lowerAscii c) (by decide) h

theorem toList_fold {s : String} (h : IsAscii s) : (fold s).toList = cased true s := by
  have hchar : ∀ cs : List Char, (∀ c ∈ cs, 0 < c.toNat ∧ c.toNat < 128) →
      cs.flatMap foldChar = cs.map Sql.Cell.lowerAscii := by
    intro cs hcs
    induction cs with
    | nil => rfl
    | cons c cs ih =>
      obtain ⟨⟨-, hc⟩, hcs⟩ := List.forall_mem_cons.mp hcs
      rw [List.flatMap_cons, List.map_cons, ih hcs, foldChar, if_pos hc, toLower_eq_lowerAscii hc]
      rfl
  rw [fold, String.toList_ofList]
  exact hchar s.toList h

theorem toList_lower {s : String} (h : IsAscii s) : (lower s).toList = cased true s := by
  have hafter : ∀ cs before : List Char, (∀ c ∈ cs, 0 < c.toNat ∧ c.toNat < 128) →
      lowerAfter before cs = cs.map Sql.Cell.lowerAscii := by
    intro cs
    induction cs with
    | nil => exact fun _ _ => rfl
    | cons c cs ih =>
      intro before hcs
      obtain ⟨⟨-, hc⟩, hcs⟩ := List.forall_mem_cons.mp hcs
      -- the one letter whose lower case depends on its neighbours is not ASCII
      have hsigma : c ≠ 'Σ' := by
        rintro rfl
        exact absurd hc (by decide)
      rw [lowerAfter, if_neg hsigma, lowerChar, if_pos hc, ih _ hcs, toLower_eq_lowerAscii hc]
      rfl
  rw [lower, String.toList_ofList]
  exact hafter s.toList [] h

theorem occurs_iff {part cs : List Char} : occurs part cs = true ↔ part <:+: cs := by
  induction cs with
  | nil => simp [occurs]
  | cons c cs ih => rw [occurs, Bool.or_eq_true, ih, List.isPrefixOf_iff_prefix, List.infix_cons_iff]

end Text

namespace Sql

/-- Whether a text is found in another at a place. -/
def Place.finds : Place → List Char → List Char → Bool
  | anywhere, part, cs => Text.occurs part cs
  | start, part, cs => part.isPrefixOf cs
  | finish, part, cs => part.isSuffixOf cs

namespace Pattern

/-! ## Reading -/

theorem read_run (cs : List Char) : read ('%' :: cs) = .run :: read cs := by
  cases cs <;> rfl

theorem read_char {c : Char} (hescape : c ≠ escape) (hrun : c ≠ '%') (hone : c ≠ '_')
    (cs : List Char) : read (c :: cs) = .char c :: read cs := by
  cases cs with
  | nil => simp [read, hescape, hrun, hone]
  | cons d cs => simp [read, hescape, hrun, hone]

theorem read_literal_append (text cs : List Char) :
    read (literal text ++ cs) = text.map .char ++ read cs := by
  induction text with
  | nil => rfl
  | cons c text ih =>
    rw [literal]
    split
    · rw [List.cons_append, List.cons_append, read, if_pos rfl, ih]
      rfl
    · next hplain =>
      rw [not_or, not_or] at hplain
      rw [List.cons_append, read_char hplain.1 hplain.2.1 hplain.2.2, ih]
      rfl

theorem seen_eq_self {cs : List Char} (h : ∀ c ∈ cs, 0 < c.toNat) : seen cs = cs := by
  rw [seen, List.takeWhile_eq_self_iff]
  intro c hc
  exact bne_iff_ne.mpr (h c hc).ne'

theorem mem_literal {text : List Char} {c : Char} (h : c ∈ literal text) :
    c = escape ∨ c ∈ text := by
  induction text with
  | nil => nomatch h
  | cons d text ih =>
    rw [literal] at h
    split at h
    · rcases List.mem_cons.mp h with rfl | h
      · exact .inl rfl
      · rcases List.mem_cons.mp h with rfl | h
        · exact .inr List.mem_cons_self
        · exact (ih h).imp_right (List.mem_cons_of_mem d)
    · rcases List.mem_cons.mp h with rfl | h
      · exact .inr List.mem_cons_self
      · exact (ih h).imp_right (List.mem_cons_of_mem d)

/-! ## Matching -/

theorem accepts_run {parts : List PatternPart} {cs : List Char} :
    accepts (.run :: parts) cs = true ↔ ∃ rest, rest <:+ cs ∧ accepts parts rest = true := by
  induction cs with
  | nil => simp [accepts]
  | cons c cs ih =>
    rw [accepts, Bool.or_eq_true, ih]
    simp only [List.suffix_cons_iff, or_and_right, exists_or, exists_eq_left]

theorem accepts_chars {text cs : List Char} {parts : List PatternPart} :
    accepts (text.map .char ++ parts) cs = true ↔ ∃ found rest, cs = found ++ rest ∧
      found.map Cell.lowerAscii = text.map Cell.lowerAscii ∧ accepts parts rest = true := by
  induction text generalizing cs with
  | nil => simp
  | cons d text ih =>
    cases cs with
    | nil => simp [accepts]
    | cons c cs =>
      rw [List.map_cons, List.cons_append, accepts, Bool.and_eq_true, beq_iff_eq, ih]
      constructor
      · rintro ⟨hc, found, rest, rfl, hfound, h⟩
        exact ⟨c :: found, rest, rfl, by rw [List.map_cons, List.map_cons, hc, hfound], h⟩
      · rintro ⟨found, rest, heq, hfound, h⟩
        cases found with
        | nil => simp at hfound
        | cons c' found =>
          obtain ⟨rfl, rfl⟩ := List.cons.inj heq
          obtain ⟨hc, hfound⟩ := List.cons.inj hfound
          exact ⟨hc, found, rest, rfl, hfound, h⟩

theorem accepts_chars_run {text cs : List Char} :
    accepts (text.map .char ++ [.run]) cs = true ↔
      text.map Cell.lowerAscii <+: cs.map Cell.lowerAscii := by
  have hrun : ∀ rest, accepts [.run] rest = true :=
    fun rest => accepts_run.mpr ⟨[], List.nil_suffix, by rw [accepts]; rfl⟩
  rw [accepts_chars]
  constructor
  · rintro ⟨found, rest, rfl, hfound, -⟩
    rw [List.map_append, hfound]
    exact List.prefix_append _ _
  · rintro ⟨after, hafter⟩
    obtain ⟨found, rest, rfl, hfound, -⟩ := List.map_eq_append_iff.mp hafter.symm
    exact ⟨found, rest, rfl, hfound, hrun rest⟩

theorem accepts_chars_end {text cs : List Char} :
    accepts (text.map .char) cs = true ↔ text.map Cell.lowerAscii = cs.map Cell.lowerAscii := by
  have hnil : ∀ rest, accepts [] rest = true ↔ rest = [] := by
    intro rest
    rw [accepts, List.isEmpty_iff]
  have hchars := @accepts_chars text cs []
  rw [List.append_nil] at hchars
  rw [hchars]
  constructor
  · rintro ⟨found, rest, rfl, hfound, h⟩
    rw [(hnil rest).mp h, List.append_nil, hfound]
  · intro h
    exact ⟨cs, [], (List.append_nil cs).symm, h.symm, (hnil []).mpr rfl⟩

/-- A search matches a text that holds the one searched for at its place, up to the case of ASCII
letters. -/
theorem accepts_pattern_of_isSeen (place : Place) {text s : String} (htext : Text.IsSeen text)
    (hs : Text.IsSeen s) :
    accepts (Clause.pattern place text) (seen s.toList) =
      place.finds (Text.cased true text) (Text.cased true s) := by
  have hliteral : ∀ c ∈ literal text.toList, 0 < c.toNat := by
    intro c hc
    rcases mem_literal hc with rfl | hc
    · decide
    · exact htext c hc
  have hpercent : 0 < '%'.toNat := by decide
  have hliteralrun : ∀ c ∈ literal text.toList ++ ['%'], 0 < c.toNat :=
    List.forall_mem_append.mpr ⟨hliteral, List.forall_mem_singleton.mpr hpercent⟩
  have hread : read (literal text.toList) = text.toList.map .char := by
    have h := read_literal_append text.toList []
    rwa [List.append_nil, read, List.append_nil] at h
  have hreadrun : read (literal text.toList ++ ['%']) = text.toList.map .char ++ [.run] :=
    read_literal_append text.toList ['%']
  have hcased : ∀ r : String, Text.cased true r = r.toList.map Cell.lowerAscii := fun _ => rfl
  rw [seen_eq_self hs, hcased, hcased, Bool.eq_iff_iff]
  unfold Clause.pattern
  cases place with
  | anywhere =>
    have hseen : seen ('%' :: literal text.toList ++ ['%']) = '%' :: literal text.toList ++ ['%'] :=
      seen_eq_self (List.forall_mem_cons.mpr ⟨hpercent, hliteralrun⟩)
    dsimp only
    rw [hseen, List.cons_append, read_run, hreadrun, accepts_run, Place.finds, Text.occurs_iff,
      List.infix_iff_prefix_suffix]
    simp only [accepts_chars_run, List.suffix_map_iff]
    constructor
    · rintro ⟨rest, hrest, h⟩
      exact ⟨_, h, rest, hrest, rfl⟩
    · rintro ⟨_, h, rest, hrest, rfl⟩
      exact ⟨rest, hrest, h⟩
  | start =>
    have hseen : seen (literal text.toList ++ ['%']) = literal text.toList ++ ['%'] :=
      seen_eq_self hliteralrun
    dsimp only
    rw [hseen, hreadrun, accepts_chars_run, Place.finds, List.isPrefixOf_iff_prefix]
  | finish =>
    have hseen : seen ('%' :: literal text.toList) = '%' :: literal text.toList :=
      seen_eq_self (List.forall_mem_cons.mpr ⟨hpercent, hliteral⟩)
    dsimp only
    rw [hseen, read_run, hread, accepts_run, Place.finds, List.isSuffixOf_iff_suffix,
      List.suffix_map_iff]
    simp only [accepts_chars_end]

theorem accepts_pattern (place : Place) {text s : String} (htext : Text.IsAscii text)
    (hs : Text.IsAscii s) :
    accepts (Clause.pattern place text) (seen s.toList) =
      place.finds (Text.cased true text) (Text.cased true s) :=
  accepts_pattern_of_isSeen place htext.isSeen hs.isSeen

end Pattern
end Sql
end Listing
