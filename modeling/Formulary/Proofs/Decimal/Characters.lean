import Formulary.Decimal.Layout

/-!
# Characters of written decimals

A finite double is written with digits, a point, signs and the mark of an exponent,
and begins with a digit or a minus sign.  So its text is never empty, and it is not
taken for a name.

Main results:

- Definition `isDecimal`: the texts of this sort.
- Theorem `Layout.exists_write`: a rounded magnitude is written as a digit and
  characters of decimals behind it.
- Theorem `isDecimal_general`: the text of a finite double is of this sort.
-/

namespace Formulary.Decimal

/-! ## Texts of decimals -/

/-- Digits, the point, the signs and the mark of an exponent. -/
def isNumeric (c : Char) : Bool :=
  c.isDigit || c == '.' || c == 'e' || c == '+' || c == '-'

/-- A text is a decimal when it begins with a digit or a minus sign and goes on with
digits, points, signs and marks of exponents. -/
def isDecimal : List Char → Bool
  | [] => false
  | c :: rest => (c.isDigit || c == '-') && rest.all isNumeric

theorem isNumeric_of_isDigit {c : Char} (digit : c.isDigit = true) : isNumeric c = true := by
  simp [isNumeric, digit]

/-- Every character of a decimal is a digit, a point, a sign or a mark. -/
theorem isNumeric_of_mem {text : List Char} (decimal : isDecimal text = true) {c : Char}
    (member : c ∈ text) : isNumeric c = true := by
  cases text with
  | nil => cases decimal
  | cons first rest =>
    simp only [isDecimal, Bool.and_eq_true, Bool.or_eq_true, beq_iff_eq, List.all_eq_true]
      at decimal
    obtain ⟨digit | rfl, all⟩ := decimal
    all_goals rcases List.mem_cons.1 member with rfl | later
    · exact isNumeric_of_isDigit digit
    · exact all c later
    · rfl
    · exact all c later

/-! ## Digits -/

theorem isDigit_of_mem_digitsOf {n : Nat} {c : Char} (member : c ∈ digitsOf n) :
    c.isDigit = true :=
  Nat.isDigit_of_mem_toDigits (by decide) (by decide) member

/-- A rounded fraction has digits and nothing else. -/
theorem Numeral.isDigit_of_mem_ofFraction {tie : Tie} {precision numerator denominator : Nat}
    {c : Char} (member : c ∈ (ofFraction tie precision numerator denominator).digits) :
    c.isDigit = true := by
  simp only [ofFraction] at member
  split at member
  · rw [(List.mem_replicate.1 member).2]
    rfl
  · split at member
    all_goals exact isDigit_of_mem_digitsOf member

/-- It has at least one digit. -/
theorem Numeral.digits_ofFraction_ne_nil {tie : Tie} {precision : Nat} (positive : 0 < precision)
    (numerator denominator : Nat) :
    (ofFraction tie precision numerator denominator).digits ≠ [] := by
  simp only [ofFraction]
  split
  · rw [ne_eq, List.replicate_eq_nil_iff]
    exact Nat.ne_of_gt positive
  · split
    all_goals exact Nat.toDigits_ne_nil

theorem mem_of_mem_dropClosingZeros {digits : List Char} {c : Char}
    (member : c ∈ dropClosingZeros digits) : c ∈ digits := by
  rw [dropClosingZeros, List.mem_reverse] at member
  exact List.mem_reverse.1 ((List.dropWhile_suffix _).mem member)

/-! ## Layouts -/

namespace Layout

variable {layout : Layout}

/-- The digits in front of the point come first. -/
theorem exists_placed {fraction : List Char} (digits : ∀ c ∈ fraction, isNumeric c = true)
    (whole : List Char) :
    ∃ rest, layout.placed whole fraction = whole ++ rest ∧ ∀ c ∈ rest, isNumeric c = true := by
  have pointed : ∀ kept : List Char, (∀ c ∈ kept, c ∈ fraction) →
      ∀ c ∈ '.' :: kept, isNumeric c = true := by
    intro kept inside c member
    rcases List.mem_cons.1 member with rfl | member
    · rfl
    · exact digits c (inside c member)
  unfold placed
  split
  · exact ⟨_, rfl, pointed fraction fun _ member => member⟩
  · have inside : ∀ c ∈ dropClosingZeros fraction, c ∈ fraction :=
      fun _ member => mem_of_mem_dropClosingZeros member
    cases kept : dropClosingZeros fraction with
    | nil =>
      refine ⟨[], (List.append_nil whole).symm, ?_⟩
      intro c member
      cases member
    | cons first more =>
      rw [kept] at inside
      exact ⟨_, rfl, pointed _ inside⟩

/-- Digits from the first on are in front of the point, and the others behind it. -/
theorem exists_placed_take {first : Char} {more : List Char}
    (digits : ∀ c ∈ first :: more, isNumeric c = true) (count : Nat) :
    ∃ rest, layout.placed ((first :: more).take (count + 1)) ((first :: more).drop (count + 1)) =
      first :: rest ∧ ∀ c ∈ rest, isNumeric c = true := by
  have behind : ∀ c ∈ (first :: more).drop (count + 1), isNumeric c = true :=
    fun c member => digits c (List.mem_of_mem_drop member)
  obtain ⟨rest, placed_eq, rest_numeric⟩ :=
    @exists_placed layout _ behind ((first :: more).take (count + 1))
  rw [placed_eq, List.take_succ_cons]
  refine ⟨more.take count ++ rest, rfl, ?_⟩
  intro c member
  rcases List.mem_append.1 member with taken | later
  · exact digits c (List.mem_cons_of_mem _ (List.mem_of_mem_take taken))
  · exact rest_numeric c later

/-- An exponent is written with its mark, a sign and digits. -/
theorem isNumeric_of_mem_exponentMark {exponent : Int} {c : Char}
    (member : c ∈ layout.exponentMark exponent) : isNumeric c = true := by
  simp only [exponentMark, List.cons_append, List.mem_cons, List.mem_append] at member
  rcases member with rfl | rfl | zero | digit
  · rfl
  · split <;> rfl
  · rw [(List.mem_replicate.1 zero).2]
    rfl
  · exact isNumeric_of_isDigit (isDigit_of_mem_digitsOf digit)

/-- A rounded magnitude is written as a digit and characters of decimals behind it. -/
theorem exists_write {numeral : Numeral} (nonempty : numeral.digits ≠ [])
    (digits : ∀ c ∈ numeral.digits, c.isDigit = true) :
    ∃ first rest, layout.write numeral = first :: rest ∧ first.isDigit = true ∧
      ∀ c ∈ rest, isNumeric c = true := by
  obtain ⟨first, more, parted⟩ := List.exists_cons_of_ne_nil nonempty
  rw [parted] at digits
  have first_digit := digits first List.mem_cons_self
  have numeric : ∀ c ∈ first :: more, isNumeric c = true :=
    fun c member => isNumeric_of_isDigit (digits c member)
  unfold write
  rw [parted]
  split
  · split
    · obtain ⟨rest, written, rest_numeric⟩ :=
        @exists_placed_take layout _ _ numeric numeral.exponent.toNat
      exact ⟨first, rest, written, first_digit, rest_numeric⟩
    · have zeros_numeric : ∀ c ∈ List.replicate (numeral.exponent.natAbs - 1) '0' ++
          first :: more, isNumeric c = true := by
        intro c member
        rcases List.mem_append.1 member with zero | digit
        · rw [(List.mem_replicate.1 zero).2]
          rfl
        · exact numeric c digit
      obtain ⟨rest, written, rest_numeric⟩ := @exists_placed layout _ zeros_numeric ['0']
      exact ⟨'0', rest, written, rfl, rest_numeric⟩
  · obtain ⟨rest, written, rest_numeric⟩ := @exists_placed_take layout _ _ numeric 0
    rw [written]
    refine ⟨first, rest ++ layout.exponentMark numeral.exponent, rfl, first_digit, ?_⟩
    intro c member
    rcases List.mem_append.1 member with fixed | mark
    · exact rest_numeric c fixed
    · exact isNumeric_of_mem_exponentMark mark

end Layout

/-- The text of a finite double is a decimal. -/
theorem isDecimal_general {x : Float} (finite : Binary64.isFinite x = true) (precision : Nat) :
    isDecimal (general precision x).toList = true := by
  unfold general
  cases datum : Binary64.decode x with
  | notANumber =>
    rw [Binary64.isFinite, datum] at finite
    cases finite
  | infinite negative =>
    rw [Binary64.isFinite, datum] at finite
    cases finite
  | finite negative units =>
    obtain ⟨first, rest, written, digit, numeric⟩ := @Layout.exists_write (.general precision)
      (Numeral.ofFraction .toEven (Layout.general precision).precision units Binary64.one)
      (Numeral.digits_ofFraction_ne_nil (Layout.general_precision_pos precision) _ _)
      (fun _ member => Numeral.isDigit_of_mem_ofFraction member)
    have tie : (Layout.general precision).tie = .toEven := rfl
    simp only [Layout.writeFinite, String.toList_ofList, tie, written]
    cases negative
    · simp [isDecimal, digit, List.all_eq_true.2 numeric]
    · simp [isDecimal, isNumeric_of_isDigit digit, List.all_eq_true.2 numeric]

end Formulary.Decimal
