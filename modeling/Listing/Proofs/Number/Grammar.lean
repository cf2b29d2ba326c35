import Listing.Number.Reading
import Mathlib.Data.List.Basic

/-!
# The grammar of numbers

What the readers of numbers accept, as a grammar: a sign, digits of any script around a point, an
exponent, and blanks at both ends. Reading a number refuses some of the blanks that looking like one
allows.
-/

namespace Listing.Numeral

open Text

/-! ## Integers and decimals -/

inductive Sign : List Char → Prop
  | absent : Sign []
  | plus : Sign ['+']
  | minus : Sign ['-']

def Digits (cs : List Char) : Prop := ∀ c ∈ cs, isDigit c = true

/-- A sign and digits. -/
def IsInteger (cs : List Char) : Prop :=
  ∃ sign digits, Sign sign ∧ Digits digits ∧ digits ≠ [] ∧ cs = sign ++ digits

/-- Digits, or a point with digits on at least one side. -/
inductive Mantissa : List Char → Prop
  | whole {ds : List Char} : Digits ds → ds ≠ [] → Mantissa ds
  | point {ds es : List Char} : Digits ds → Digits es → ds ≠ [] ∨ es ≠ [] →
    Mantissa (ds ++ '.' :: es)

/-- A mark, a sign and digits, or nothing. -/
inductive Exponent : List Char → Prop
  | absent : Exponent []
  | marked {mark : Char} {sign ds : List Char} : mark = 'e' ∨ mark = 'E' → Sign sign → Digits ds →
    ds ≠ [] → Exponent (mark :: (sign ++ ds))

/-- A sign, a mantissa and an exponent. -/
def IsDecimal (cs : List Char) : Prop :=
  ∃ sign mantissa exponent, Sign sign ∧ Mantissa mantissa ∧ Exponent exponent ∧
    cs = sign ++ (mantissa ++ exponent)

/-- A text of some form with blanks of some kind at its ends. -/
def Surrounded (blank : Char → Bool) (Form : List Char → Prop) (cs : List Char) : Prop :=
  ∃ left body right, (∀ c ∈ left, blank c = true) ∧ (∀ c ∈ right, blank c = true) ∧ Form body ∧
    cs = left ++ (body ++ right)

/-! ## Splitting -/

/-- A text that does not go on with a character of some kind. -/
def Stops (kind : Char → Bool) (cs : List Char) : Prop := ∀ c ∈ cs.head?, kind c = false

theorem stops_nil (kind : Char → Bool) : Stops kind [] := fun _ h => nomatch h

theorem stops_cons {kind : Char → Bool} {c : Char} (h : kind c = false) (cs : List Char) :
    Stops kind (c :: cs) := by
  intro d hd
  obtain rfl := Option.some.inj hd
  exact h

theorem stops_dropWhile (kind : Char → Bool) (cs : List Char) : Stops kind (cs.dropWhile kind) := by
  intro c hc
  rw [Option.mem_def] at hc
  have h := List.head?_dropWhile_not kind cs
  rw [hc] at h
  simpa using h

theorem takeWhile_append_of_stops {kind : Char → Bool} {ds rest : List Char}
    (hds : ∀ c ∈ ds, kind c = true) (hrest : Stops kind rest) :
    (ds ++ rest).takeWhile kind = ds ∧ (ds ++ rest).dropWhile kind = rest := by
  have hhead : rest.takeWhile kind = [] ∧ rest.dropWhile kind = rest := by
    cases rest with
    | nil => exact ⟨rfl, rfl⟩
    | cons c cs =>
      have hc := hrest c rfl
      simp [hc]
  rw [List.takeWhile_append_of_pos hds, List.dropWhile_append_of_pos hds, hhead.1, hhead.2]
  simp

theorem drop_length_takeWhile (kind : Char → Bool) (cs : List Char) :
    cs.drop (cs.takeWhile kind).length = cs.dropWhile kind := by
  have hsplit : cs.takeWhile kind ++ cs.dropWhile kind = cs := List.takeWhile_append_dropWhile
  calc cs.drop (cs.takeWhile kind).length
      = (cs.takeWhile kind ++ cs.dropWhile kind).drop (cs.takeWhile kind).length := by rw [hsplit]
    _ = cs.dropWhile kind := List.drop_left

theorem splitDigits_append {ds rest : List Char} (hds : Digits ds) (hrest : Stops isDigit rest) :
    splitDigits (ds ++ rest) = (ds.filterMap digitValue?, rest) := by
  obtain ⟨htake, hdrop⟩ := takeWhile_append_of_stops hds hrest
  rw [splitDigits, htake, hdrop]

theorem exists_digits (cs : List Char) :
    ∃ ds rest, Digits ds ∧ Stops isDigit rest ∧ cs = ds ++ rest := by
  refine ⟨cs.takeWhile isDigit, cs.dropWhile isDigit, fun c hc => ?_, stops_dropWhile _ _,
    (List.takeWhile_append_dropWhile).symm⟩
  exact List.all_eq_true.mp List.all_takeWhile c hc

theorem filterMap_digitValue?_eq_nil {ds : List Char} (hds : Digits ds) :
    ds.filterMap digitValue? = [] ↔ ds = [] := by
  rw [List.filterMap_eq_nil_iff]
  constructor
  · intro h
    cases ds with
    | nil => rfl
    | cons d ds =>
      have hd := hds d List.mem_cons_self
      rw [isDigit, h d List.mem_cons_self] at hd
      simp at hd
  · rintro rfl
    simp

def isSign (c : Char) : Bool := c == '+' || c == '-'

theorem splitSign_append {sign rest : List Char} (hsign : Sign sign) (hrest : Stops isSign rest) :
    (splitSign (sign ++ rest)).2 = rest := by
  cases hsign with
  | plus => rfl
  | minus => rfl
  | absent =>
    rw [List.nil_append]
    unfold splitSign
    split
    · exact absurd (hrest _ rfl) (by decide)
    · exact absurd (hrest _ rfl) (by decide)
    · rfl

theorem exists_sign (cs : List Char) : ∃ sign, Sign sign ∧ cs = sign ++ (splitSign cs).2 := by
  unfold splitSign
  split
  · exact ⟨_, .plus, rfl⟩
  · exact ⟨_, .minus, rfl⟩
  · exact ⟨_, .absent, rfl⟩

/-! ## Reading decimals -/

theorem isSign_of_isDigit {c : Char} (h : isDigit c = true) : isSign c = false := by
  rw [isSign, Bool.or_eq_false_iff, beq_eq_false_iff_ne, beq_eq_false_iff_ne]
  constructor
  · rintro rfl
    exact absurd h (by decide)
  · rintro rfl
    exact absurd h (by decide)

theorem Digits.stops_isSign {ds : List Char} (hds : Digits ds) (hne : ds ≠ []) (rest : List Char) :
    Stops isSign (ds ++ rest) := by
  cases ds with
  | nil => exact absurd rfl hne
  | cons d ds => exact stops_cons (isSign_of_isDigit (hds d List.mem_cons_self)) _

theorem Exponent.stops_isDigit {cs : List Char} (h : Exponent cs) : Stops isDigit cs := by
  cases h with
  | absent => exact stops_nil _
  | marked hmark =>
    rcases hmark with rfl | rfl
    · exact stops_cons (by decide) _
    · exact stops_cons (by decide) _

theorem splitExponent_eq_nil_iff {cs : List Char} : (splitExponent cs).2 = [] ↔ Exponent cs := by
  constructor
  · intro h
    unfold splitExponent at h
    split at h
    · next mark rest =>
      split at h
      · next hmark =>
        obtain ⟨sign, hsign, hrest⟩ := exists_sign rest
        obtain ⟨ds, tail, hds, htail, hsplit⟩ := exists_digits (splitSign rest).2
        dsimp only at h
        rw [hsplit, splitDigits_append hds htail] at h
        split at h
        · exact absurd h (List.cons_ne_nil _ _)
        · next hne heq =>
          obtain ⟨rfl, rfl⟩ := Prod.mk.inj heq
          obtain rfl : tail = [] := h
          rw [hrest, hsplit, List.append_nil]
          refine .marked hmark hsign hds fun hnil => ?_
          exact hne ((filterMap_digitValue?_eq_nil hds).mpr hnil)
      · exact absurd h (List.cons_ne_nil _ _)
    · exact .absent
  · intro h
    cases h with
    | absent => rfl
    | @marked mark sign ds hmark hsign hds hne =>
      have hsplit : splitDigits (splitSign (sign ++ ds)).2 = (ds.filterMap digitValue?, []) := by
        have hstops : Stops isSign ds := by simpa using hds.stops_isSign hne []
        rw [splitSign_append hsign hstops]
        simpa using splitDigits_append hds (stops_nil isDigit)
      unfold splitExponent
      dsimp only
      rw [if_pos hmark, hsplit]
      split
      · next hnil => exact absurd ((filterMap_digitValue?_eq_nil hds).mp (Prod.mk.inj hnil).1) hne
      · next heq => exact (Prod.mk.inj heq).2.symm

theorem isEmpty_digitValues {ds : List Char} (hds : Digits ds) :
    (ds.filterMap digitValue?).isEmpty = decide (ds = []) := by
  rw [Bool.eq_iff_iff, List.isEmpty_iff, decide_eq_true_iff, filterMap_digitValue?_eq_nil hds]

variable {cs ds es rest : List Char}

theorem splitDecimal?_whole (h : (splitSign cs).2 = ds ++ rest) (hds : Digits ds)
    (hrest : Stops isDigit rest) (hpoint : ∀ tail, rest ≠ '.' :: tail) :
    (splitDecimal? cs).map (·.2) = if ds = [] then none else some (splitExponent rest).2 := by
  unfold splitDecimal?
  dsimp only
  rw [h, splitDigits_append hds hrest]
  dsimp only
  split
  · next tail => exact absurd rfl (hpoint tail)
  · simp only [isEmpty_digitValues hds, List.isEmpty_nil, Bool.and_true, decide_eq_true_eq]
    split
    · rfl
    · rfl

theorem splitDecimal?_point (h : (splitSign cs).2 = ds ++ '.' :: (es ++ rest)) (hds : Digits ds)
    (hes : Digits es) (hrest : Stops isDigit rest) :
    (splitDecimal? cs).map (·.2) =
      if ds = [] ∧ es = [] then none else some (splitExponent rest).2 := by
  unfold splitDecimal?
  dsimp only
  rw [h, splitDigits_append hds (stops_cons (by decide) _)]
  simp only [splitDigits_append hes hrest, isEmpty_digitValues hds, isEmpty_digitValues hes]
  by_cases hnil : ds = [] ∧ es = []
  · simp [hnil]
  · rw [if_neg hnil]
    simp only [Bool.and_eq_true, decide_eq_true_eq, if_neg hnil, isEmpty_digitValues hes]
    rfl

theorem splitDecimal?_eq_nil_iff :
    (∃ parts, splitDecimal? cs = some (parts, [])) ↔ IsDecimal cs := by
  -- only the rest matters, so the parts that are read can be forgotten
  have hmap : (∃ parts, splitDecimal? cs = some (parts, [])) ↔
      (splitDecimal? cs).map (·.2) = some [] := by
    rw [Option.map_eq_some_iff]
    exact ⟨fun ⟨p, h⟩ => ⟨_, h, rfl⟩, fun ⟨⟨p, rest⟩, h, hrest⟩ => ⟨p, by rw [h, ← hrest]⟩⟩
  rw [hmap]
  constructor
  · intro h
    obtain ⟨sign, hsign, hcs⟩ := exists_sign cs
    obtain ⟨ds, rest, hds, hrest, hsplit⟩ := exists_digits (splitSign cs).2
    by_cases hpoint : ∃ tail, rest = '.' :: tail
    · obtain ⟨tail, rfl⟩ := hpoint
      obtain ⟨es, rest, hes, hstops, rfl⟩ := exists_digits tail
      rw [splitDecimal?_point hsplit hds hes hstops] at h
      split at h
      · exact absurd h (Option.some_ne_none _).symm
      · next hsome =>
        have hexp := splitExponent_eq_nil_iff.mp (Option.some.inj h)
        refine ⟨sign, _, rest, hsign, .point hds hes (not_and_or.mp hsome), hexp, ?_⟩
        rw [hcs, hsplit, List.append_assoc, List.cons_append]
    · rw [splitDecimal?_whole hsplit hds hrest (not_exists.mp hpoint)] at h
      split at h
      · exact absurd h (Option.some_ne_none _).symm
      · next hsome =>
        have hexp := splitExponent_eq_nil_iff.mp (Option.some.inj h)
        refine ⟨sign, ds, rest, hsign, .whole hds hsome, hexp, ?_⟩
        rw [hcs, hsplit]
  · rintro ⟨sign, mantissa, exponent, hsign, hmantissa, hexp, rfl⟩
    cases hmantissa with
    | whole hds hne =>
      have hsplit := splitSign_append hsign (hds.stops_isSign hne exponent)
      rw [splitDecimal?_whole hsplit hds hexp.stops_isDigit ?_, if_neg hne,
        splitExponent_eq_nil_iff.mpr hexp]
      rintro tail rfl
      cases hexp with
      | marked hmark => simp at hmark
    | @point ds es hds hes hsome =>
      have hstops : Stops isSign ((ds ++ '.' :: es) ++ exponent) := by
        rw [List.append_assoc]
        by_cases hnil : ds = []
        · rw [hnil]
          exact stops_cons (by decide) _
        · exact hds.stops_isSign hnil _
      have hsplit := splitSign_append hsign hstops
      rw [List.append_assoc, List.cons_append] at hsplit
      rw [List.append_assoc, List.cons_append, splitDecimal?_point hsplit hds hes
        hexp.stops_isDigit, if_neg (not_and_or.mpr hsome), splitExponent_eq_nil_iff.mpr hexp]

/-! ## Reading integers -/

theorem isInteger_iff : IsInteger cs ↔ Digits (splitSign cs).2 ∧ (splitSign cs).2 ≠ [] := by
  constructor
  · rintro ⟨sign, ds, hsign, hds, hne, rfl⟩
    have hstops : Stops isSign ds := by simpa using hds.stops_isSign hne []
    rw [splitSign_append hsign hstops]
    exact ⟨hds, hne⟩
  · rintro ⟨hds, hne⟩
    obtain ⟨sign, hsign, hcs⟩ := exists_sign cs
    exact ⟨sign, _, hsign, hds, hne, hcs⟩

theorem integer_eq_absent_iff : integer cs = .absent ↔ ¬IsInteger (trimBy isBlank cs) := by
  obtain ⟨ds, rest, hds, hrest, hsplit⟩ := exists_digits (splitSign (trimBy isBlank cs)).2
  have hinteger : IsInteger (trimBy isBlank cs) ↔ ds ≠ [] ∧ rest = [] := by
    rw [isInteger_iff, hsplit]
    constructor
    · rintro ⟨hall, hne⟩
      cases rest with
      | nil => exact ⟨by simpa using hne, rfl⟩
      | cons c rest =>
        have hc := hrest c rfl
        rw [hall c (by simp)] at hc
        exact absurd hc (by decide)
    · rintro ⟨hne, rfl⟩
      rw [List.append_nil]
      exact ⟨hds, hne⟩
  rw [hinteger]
  unfold integer
  dsimp only
  rw [hsplit, splitDigits_append hds hrest]
  split
  · next d ds' heq =>
    obtain ⟨hvalues, hnil⟩ := Prod.mk.inj heq
    have hne : ds ≠ [] := by
      rintro rfl
      simp at hvalues
    refine iff_of_false ?_ (not_not_intro ⟨hne, hnil⟩)
    split
    · simp
    · simp
  · next hother =>
    refine iff_of_true rfl ?_
    rintro ⟨hne, rfl⟩
    obtain ⟨d, ds', hvalues⟩ := List.exists_cons_of_ne_nil
      (mt (filterMap_digitValue?_eq_nil hds).mp hne)
    exact hother d ds' (by rw [hvalues])

theorem IsInteger.isDecimal (h : IsInteger cs) : IsDecimal cs := by
  obtain ⟨sign, ds, hsign, hds, hne, rfl⟩ := h
  exact ⟨sign, ds, [], hsign, .whole hds hne, .absent, by rw [List.append_nil]⟩

theorem decimal_eq_absent_iff : decimal cs = .absent ↔ ¬IsDecimal (trimBy isBlank cs) := by
  rw [← splitDecimal?_eq_nil_iff, not_exists]
  unfold decimal
  split
  · next parts heq =>
    refine iff_of_false ?_ fun h => h parts heq
    split
    · simp
    · simp
  · next hother => exact iff_of_true rfl hother

/-! ## Blanks at the ends -/

theorem isBlank_of_isDigit {c : Char} (h : isDigit c = true) : isBlank c = false := by
  have hzeros : ∀ z ∈ decimalZeros, z = 48 ∨ (1632 ≤ z ∧ z + 10 ≤ 5760) ∨
      (6112 ≤ z ∧ z + 10 ≤ 8192) ∨ 42528 ≤ z := by decide
  rw [isDigit, digitValue?, Option.isSome_map, List.find?_isSome] at h
  obtain ⟨z, hz, hc⟩ := h
  rw [Bool.and_eq_true, decide_eq_true_eq, decide_eq_true_eq] at hc
  have hplace := hzeros z hz
  simp only [isBlank, Bool.or_eq_false_iff, Bool.and_eq_false_iff, decide_eq_false_iff_not,
    beq_eq_false_iff_ne]
  omega

/-- A form of texts that are not empty and hold no blank. -/
def Tight (Form : List Char → Prop) : Prop :=
  ∀ body, Form body → body ≠ [] ∧ ∀ c ∈ body, isBlank c = false

theorem Sign.not_blank {sign : List Char} (h : Sign sign) : ∀ c ∈ sign, isBlank c = false := by
  cases h with
  | absent => simp
  | plus => exact List.forall_mem_singleton.mpr (by decide)
  | minus => exact List.forall_mem_singleton.mpr (by decide)

theorem Digits.not_blank {ds : List Char} (h : Digits ds) : ∀ c ∈ ds, isBlank c = false :=
  fun c hc => isBlank_of_isDigit (h c hc)

theorem Mantissa.not_blank {cs : List Char} (h : Mantissa cs) :
    cs ≠ [] ∧ ∀ c ∈ cs, isBlank c = false := by
  cases h with
  | whole hds hne => exact ⟨hne, hds.not_blank⟩
  | point hds hes =>
    refine ⟨by simp, fun c hc => ?_⟩
    rcases List.mem_append.mp hc with hc | hc
    · exact hds.not_blank c hc
    · rcases List.mem_cons.mp hc with rfl | hc
      · decide
      · exact hes.not_blank c hc

theorem Exponent.not_blank {cs : List Char} (h : Exponent cs) : ∀ c ∈ cs, isBlank c = false := by
  cases h with
  | absent => simp
  | marked hmark hsign hds =>
    intro c hc
    rcases List.mem_cons.mp hc with rfl | hc
    · rcases hmark with rfl | rfl
      · decide
      · decide
    · rcases List.mem_append.mp hc with hc | hc
      · exact hsign.not_blank c hc
      · exact hds.not_blank c hc

theorem tight_isInteger : Tight IsInteger := by
  rintro body ⟨sign, ds, hsign, hds, hne, rfl⟩
  refine ⟨by simp [hne], fun c hc => ?_⟩
  rcases List.mem_append.mp hc with hc | hc
  · exact hsign.not_blank c hc
  · exact hds.not_blank c hc

theorem tight_isDecimal : Tight IsDecimal := by
  rintro body ⟨sign, mantissa, exponent, hsign, hmantissa, hexp, rfl⟩
  refine ⟨by simp [hmantissa.not_blank.1], fun c hc => ?_⟩
  rcases List.mem_append.mp hc with hc | hc
  · exact hsign.not_blank c hc
  · rcases List.mem_append.mp hc with hc | hc
    · exact hmantissa.not_blank.2 c hc
    · exact hexp.not_blank c hc

theorem exists_trim (blank : Char → Bool) (cs : List Char) :
    ∃ left right, (∀ c ∈ left, blank c = true) ∧ (∀ c ∈ right, blank c = true) ∧
      cs = left ++ (trimBy blank cs ++ right) := by
  refine ⟨cs.takeWhile blank, ((cs.dropWhile blank).reverse.takeWhile blank).reverse, ?_, ?_, ?_⟩
  · exact fun c hc => List.all_eq_true.mp List.all_takeWhile c hc
  · exact fun c hc => List.all_eq_true.mp List.all_takeWhile c (List.mem_reverse.mp hc)
  · rw [trimBy, ← List.reverse_append, List.takeWhile_append_dropWhile, List.reverse_reverse,
      List.takeWhile_append_dropWhile]

theorem trimBy_append {blank : Char → Bool} {left body right : List Char}
    (hleft : ∀ c ∈ left, blank c = true) (hright : ∀ c ∈ right, blank c = true) (hne : body ≠ [])
    (hbody : ∀ c ∈ body, blank c = false) : trimBy blank (left ++ (body ++ right)) = body := by
  have hstops : ∀ {cs : List Char}, cs ≠ [] → (∀ c ∈ cs, blank c = false) → ∀ rest,
      Stops blank (cs ++ rest) := by
    intro cs hne hcs rest
    cases cs with
    | nil => exact absurd rfl hne
    | cons c cs => exact stops_cons (hcs c List.mem_cons_self) _
  have hdrop : (left ++ (body ++ right)).dropWhile blank = body ++ right :=
    (takeWhile_append_of_stops hleft (hstops hne hbody right)).2
  have hback : (right.reverse ++ body.reverse).dropWhile blank = body.reverse := by
    refine (takeWhile_append_of_stops (fun c hc => hright c (List.mem_reverse.mp hc)) ?_).2
    have hne' : body.reverse ≠ [] := by simpa using hne
    have h := hstops hne' (fun c hc => hbody c (List.mem_reverse.mp hc)) []
    rwa [List.append_nil] at h
  rw [trimBy, hdrop, List.reverse_append, hback, List.reverse_reverse]

/-- A text is of a form up to blanks exactly if what trimming leaves of it is. -/
theorem surrounded_iff {blank : Char → Bool} (hblank : ∀ c, blank c = true → isBlank c = true)
    {Form : List Char → Prop} (htight : Tight Form) :
    Surrounded blank Form cs ↔ Form (trimBy blank cs) := by
  constructor
  · rintro ⟨left, body, right, hleft, hright, hbody, rfl⟩
    obtain ⟨hne, hnot⟩ := htight body hbody
    rwa [trimBy_append hleft hright hne]
    intro c hc
    by_contra hb
    have hwide := hblank c (by simpa using hb)
    rw [hnot c hc] at hwide
    exact absurd hwide (by decide)
  · intro h
    obtain ⟨left, right, hleft, hright, hcs⟩ := exists_trim blank cs
    exact ⟨left, _, right, hleft, hright, h, hcs⟩

theorem isBlank_of_isNumberBlank (c : Char) (h : isNumberBlank c = true) : isBlank c = true := by
  rw [isNumberBlank, Bool.and_eq_true] at h
  exact h.1

/-- Reading refuses a decimal exactly if blanks surround it that numbers may not have at their ends. -/
theorem decimal_eq_refused_iff : decimal cs = .refused ↔
    Surrounded isBlank IsDecimal cs ∧ ¬Surrounded isNumberBlank IsDecimal cs := by
  rw [surrounded_iff (fun _ h => h) tight_isDecimal,
    surrounded_iff isBlank_of_isNumberBlank tight_isDecimal]
  have hclean : IsDecimal (trimBy isBlank cs) →
      (cleanEnds cs = true ↔ IsDecimal (trimBy isNumberBlank cs)) := by
    intro hwide
    rw [cleanEnds, beq_iff_eq]
    constructor
    · intro heq
      rwa [← heq]
    · intro hnarrow
      obtain ⟨left, right, hleft, hright, hcs⟩ := exists_trim isNumberBlank cs
      obtain ⟨hne, hbody⟩ := tight_isDecimal _ hnarrow
      have htrim := trimBy_append (fun c hc => isBlank_of_isNumberBlank c (hleft c hc))
        (fun c hc => isBlank_of_isNumberBlank c (hright c hc)) hne hbody
      rwa [← hcs] at htrim
  unfold decimal
  split
  · next parts heq =>
    have hwide := splitDecimal?_eq_nil_iff.mp ⟨parts, heq⟩
    rw [← hclean hwide]
    split
    · next hends => simp [hends]
    · next hends => simp [hends, hwide]
  · next hother =>
    refine iff_of_false (by simp) fun ⟨hwide, _⟩ => ?_
    obtain ⟨parts, hparts⟩ := splitDecimal?_eq_nil_iff.mpr hwide
    exact hother parts hparts

end Listing.Numeral
