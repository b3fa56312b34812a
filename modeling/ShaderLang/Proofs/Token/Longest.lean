/-
**The longest token.**

The kinds of tokens are tried in a fixed order, and the marks in the order of their table; the first that
is there is taken.  This is the longest that could be taken: no longer front of the text is written like
a token of any kind, and none of the same length is written like one of another kind.  So neither a
number nor an operator is ever cut in two.

For words, numbers and string literals that is so because each is followed as far as it goes, and no two
kinds begin alike but for the two kinds of numbers and the point.  For marks it is a property of the
table: a mark stands in front of those that it begins with.

Main definitions:

* `ShaderLang.Lexeme.Longest` — a front of a text that is written like a token, and no longer one is;
* `ShaderLang.TokenStream.Greedy` — every token that was cut from a text is the longest at its place.

Main results:

* `ShaderLang.Lexeme.le_word`, `ShaderLang.Lexeme.le_float`, `ShaderLang.Lexeme.le_int`,
  `ShaderLang.Lexeme.string_append`, `ShaderLang.Lexeme.lt_mark` — each is followed as far as it goes;
* `ShaderLang.Lexeme.token_eq_some_iff`, `ShaderLang.Lexeme.token_eq_none_iff` — **the token in front is
  the longest one**, and where there is none, nothing is written like one;
* `ShaderLang.Lexeme.Longest.unique` — no other kind is written like the longest;
* `ShaderLang.TokenStream.ofSource_longest` — **every token of a source text is the longest at its place**.
-/

import ShaderLang.Proofs.Token.Factoring
import ShaderLang.Proofs.Token.Written

set_option relaxedAutoImplicit false
set_option autoImplicit false

namespace ShaderLang

open Text Decimal

namespace Lexeme

variable {c : Char} {v cs rest number suffix : List Char} {p : Char → Bool}

/-! ### Characters of a class -/

theorem le_run (hv : ∀ d ∈ v, p d = true) (rest : List Char) : v.length ≤ run p (v ++ rest) := by
  rw [run, List.takeWhile_append_of_pos hv, List.length_append]
  exact Nat.le_add_right _ _

/-- All characters of a class are there when another one follows. -/
theorem run_append (hv : ∀ d ∈ v, p d = true) (hrest : ∀ d ∈ rest.head?, p d = false) :
    run p (v ++ rest) = v.length := by
  rw [run, List.takeWhile_append_of_pos hv]
  cases rest with
  | nil => rw [List.takeWhile_nil, List.append_nil]
  | cons d rest =>
      rw [List.takeWhile_cons_of_neg (by simp [hrest d rfl]), List.append_nil]

theorem run_eq_zero (h : ∀ d ∈ cs.head?, p d = false) : run p cs = 0 := run_append (v := []) nofun h

/-- A suffix that is there goes on behind a number, and one that is not there leaves it open whether the
number goes on. -/
theorem le_run_add (f : List Char → Nat) (hv : ∀ d ∈ v, p d = true)
    (hsuffix : ∀ d ∈ suffix.head?, p d = false) (hf : suffix.length ≤ f (suffix ++ rest)) :
    v.length + suffix.length ≤
      run p (v ++ (suffix ++ rest)) + f ((v ++ (suffix ++ rest)).drop (run p (v ++ (suffix ++ rest)))) := by
  cases suffix with
  | nil =>
      have hle := le_run hv ([] ++ rest)
      rw [List.length_nil]
      omega
  | cons d suffix =>
      have hstop : ∀ e ∈ (d :: suffix ++ rest).head?, p e = false := hsuffix
      rw [run_append hv hstop, List.drop_left]
      exact Nat.add_le_add_left hf _

/-! ### Words -/

theorem le_word (hstart : startsName c = true) (hv : ∀ d ∈ v, continuesName d = true)
    (rest : List Char) : (c :: v).length ≤ word (c :: v ++ rest) := by
  rw [List.cons_append, word, if_pos hstart, List.length_cons, Nat.add_comm]
  exact Nat.add_le_add_left (le_run hv rest) 1

/-! ### Floating-point literals -/

theorem exponent_append {letter : Char} {sgn digits : List Char}
    (hletter : letter = 'e' ∨ letter = 'E') (hsign : sgn = [] ∨ sgn = ['+'] ∨ sgn = ['-'])
    (hne : digits ≠ []) (hdigits : ∀ d ∈ digits, isDecimal d = true) (rest : List Char) :
    exponent (letter :: (sgn ++ (digits ++ rest))) = 1 + sgn.length + decimals (digits ++ rest) := by
  have hsgn : sign (sgn ++ (digits ++ rest)) = sgn.length := by
    -- without a sign there is a digit, and no digit is taken for a sign
    rcases hsign with rfl | rfl | rfl
    · obtain ⟨d, digits, rfl⟩ := List.exists_cons_of_ne_nil hne
      have hd := not_sign_of_isDecimal (hdigits d (List.mem_cons_self ..))
      unfold sign
      split
      · next heq => exact absurd (List.cons.inj heq).1 hd.1
      · next heq => exact absurd (List.cons.inj heq).1 hd.2
      · rfl
    · rfl
    · rfl
  have hpos : decimals (digits ++ rest) ≠ 0 := by
    have hle := le_run hdigits rest
    have hlength := List.length_pos_iff.2 hne
    unfold decimals
    omega
  rw [exponent, if_pos hletter]
  dsimp only
  rw [hsgn, List.drop_left, if_neg hpos]

theorem isDecimal_of_isFloatSuffix (h : isFloatSuffix c = true) : isDecimal c = false := by
  by_contra hdecimal
  rw [not_isFloatSuffix_of_isDecimal (eq_true_of_ne_false hdecimal)] at h
  contradiction

/-- No letter of a suffix is taken for the letter of an exponent. -/
theorem exponent_suffix (h : isFloatSuffix c = true) (rest : List Char) : exponent (c :: rest) = 0 := by
  have hne : ¬ (c = 'e' ∨ c = 'E') := by
    rintro (rfl | rfl) <;> exact absurd h (by decide)
  rw [exponent, if_neg hne]

theorem length_le_floatSuffix (h : SuffixText suffix) (rest : List Char) :
    suffix.length ≤ floatSuffix (suffix ++ rest) := by
  cases h with
  | absent => exact Nat.zero_le _
  | present hletter => exact Nat.le_of_eq (if_pos hletter).symm

/-- What follows the digits is followed as far as it goes. -/
theorem le_floatTail {tail : List Char} (htail : ExponentText tail) (hsuffix : SuffixText suffix)
    (rest : List Char) : (tail ++ suffix).length ≤ floatTail (tail ++ suffix ++ rest) := by
  rw [List.append_assoc, List.length_append, floatTail]
  cases htail with
  | absent =>
      cases hsuffix with
      | absent => exact Nat.zero_le _
      | present hletter =>
          rw [List.nil_append, List.singleton_append, exponent_suffix hletter]
          exact Nat.add_le_add_left (length_le_floatSuffix (.present hletter) rest) 0
  | @present letter sgn digits hletter hsign hne hdigits =>
      have hhead : ∀ d ∈ suffix.head?, isDecimal d = false := fun d hd =>
        isDecimal_of_isFloatSuffix (hsuffix.isFloatSuffix d (List.mem_of_mem_head? hd))
      have hle := le_run_add floatSuffix hdigits hhead (length_le_floatSuffix hsuffix rest)
      have hdrop (xs : List Char) (k : Nat) :
          (letter :: (sgn ++ xs)).drop (1 + sgn.length + k) = xs.drop k := by
        rw [← List.cons_append, Nat.add_comm 1, ← List.length_cons, List.drop_length_add_append]
      rw [List.cons_append, List.append_assoc, exponent_append hletter hsign hne hdigits, hdrop,
        List.length_cons, List.length_append]
      unfold decimals
      omega

/-- Neither an exponent nor a suffix begins with a digit. -/
theorem head_floatTail {tail : List Char} (htail : ExponentText tail) (hsuffix : SuffixText suffix) :
    ∀ d ∈ (tail ++ suffix).head?, isDecimal d = false := by
  intro d hd
  cases tail with
  | nil => exact isDecimal_of_isFloatSuffix (hsuffix.isFloatSuffix d (List.mem_of_mem_head? hd))
  | cons letter tail =>
      obtain rfl := Option.some.inj hd
      exact htail.not_isDecimal _ _ rfl

theorem exponent_ne_zero {letter : Char} {tail : List Char} (htail : ExponentText (letter :: tail))
    (rest : List Char) : exponent (letter :: tail ++ rest) ≠ 0 := by
  cases htail with
  | present hletter hsign hne hdigits =>
      rw [List.cons_append, List.append_assoc, exponent_append hletter hsign hne hdigits]
      omega

/-- A floating-point literal is followed as far as it goes. -/
theorem le_float (hnumber : NumberText number) (hsuffix : SuffixText suffix) (rest : List Char) :
    (number ++ suffix).length ≤ float (number ++ suffix ++ rest) := by
  cases hnumber with
  | @pointed whole fraction tail hwhole hfraction hne htail =>
      have hsplit : whole ++ '.' :: (fraction ++ tail) ++ suffix ++ rest =
          whole ++ '.' :: (fraction ++ (tail ++ suffix ++ rest)) := by simp
      have hdecimals : decimals (whole ++ '.' :: (fraction ++ (tail ++ suffix ++ rest))) =
          whole.length := run_append hwhole (by simp [isDecimal])
      have hle := le_run_add floatTail hfraction (head_floatTail htail hsuffix)
        (le_floatTail htail hsuffix rest)
      have hnone : ¬ (whole.length = 0 ∧ decimals (fraction ++ (tail ++ suffix ++ rest)) = 0) := by
        rintro ⟨hwholeNil, hfractionNil⟩
        have hfractionLe := le_run hfraction (tail ++ suffix ++ rest)
        unfold decimals at hfractionNil
        rcases hne with hne | hne
        · exact hne (List.length_eq_zero_iff.1 hwholeNil)
        · exact hne (List.length_eq_zero_iff.1 (by omega))
      rw [hsplit, float_of_point (by rw [hdecimals, List.drop_left]), hdecimals, if_neg hnone]
      simp only [List.length_append, List.length_cons] at hle ⊢
      unfold decimals
      omega
  | @plain whole tail letter hwhole hne htail =>
      have hsplit : whole ++ letter :: tail ++ suffix ++ rest =
          whole ++ (letter :: tail ++ suffix ++ rest) := by simp
      have hdecimals : decimals (whole ++ (letter :: tail ++ suffix ++ rest)) = whole.length :=
        run_append hwhole (by simpa using htail.not_isDecimal letter tail rfl)
      have hplain : ∀ r, letter :: tail ++ suffix ++ rest ≠ '.' :: r := by
        intro r heq
        rcases htail.head with rfl | rfl <;> exact absurd (List.cons.inj heq).1 (by decide)
      have hexponent : exponent (letter :: tail ++ suffix ++ rest) ≠ 0 := by
        rw [List.append_assoc]
        exact exponent_ne_zero htail _
      have hnone : ¬ (whole.length = 0 ∨ exponent (letter :: tail ++ suffix ++ rest) = 0) :=
        not_or.2 ⟨fun hzero => hne (List.length_eq_zero_iff.1 hzero), hexponent⟩
      rw [hsplit, float_of_plain (by rwa [hdecimals, List.drop_left]), hdecimals, List.drop_left,
        if_neg hnone, List.append_assoc, List.length_append]
      exact Nat.add_le_add_left (le_floatTail htail hsuffix rest) _

/-! ### Integer literals -/

theorem not_isHexadecimal_of_isSuffix (h : IntegerLiteral.isSuffix c = true) :
    isHexadecimal c = false := by
  have hnone : (['u', 'U', 'l', 'L'].all fun d => !isHexadecimal d) = true := by decide
  simpa using List.all_eq_true.1 hnone c (List.contains_iff_mem.1 h)

theorem not_isDecimal_of_isSuffix (h : IntegerLiteral.isSuffix c = true) : isDecimal c = false := by
  have hhex := not_isHexadecimal_of_isSuffix h
  simp only [isHexadecimal, Bool.or_eq_false_iff] at hhex
  exact hhex.1.1

/-- Neither a digit nor a letter of a suffix is taken for the letter of a hexadecimal literal. -/
theorem length_le_one_of_hexDigits (hv : ∀ d ∈ v, isDecimal d = true ∨ IntegerLiteral.isSuffix d = true)
    (h : hexDigits (v ++ rest) ≠ 0) : v.length ≤ 1 := by
  match v with
  | [] => exact Nat.zero_le _
  | [_] => exact Nat.le_refl _
  | c :: letter :: v =>
      have hkind := hv letter (List.mem_cons_of_mem c (List.mem_cons_self ..))
      have hletter : ¬ (letter = 'x' ∨ letter = 'X') := by
        rintro (rfl | rfl) <;> exact absurd hkind (by decide)
      refine absurd ?_ h
      rw [List.cons_append, List.cons_append]
      unfold hexDigits
      split
      · next heq =>
          obtain ⟨rfl, -⟩ := List.cons.inj (List.cons.inj heq).2
          exact if_neg hletter
      · rfl

theorem intDigits_hexadecimal {letter : Char} {digits : List Char}
    (hletter : letter = 'x' ∨ letter = 'X') (hne : digits ≠ [])
    (hdigits : ∀ d ∈ digits, isHexadecimal d = true) (rest : List Char) :
    intDigits ('0' :: letter :: (digits ++ rest)) = run isHexadecimal (digits ++ rest) + 2 := by
  have hhex : hexDigits ('0' :: letter :: (digits ++ rest)) = run isHexadecimal (digits ++ rest) :=
    if_pos hletter
  have hle := le_run hdigits rest
  have hlength := List.length_pos_iff.2 hne
  rw [intDigits, hhex, if_neg (by omega), Nat.add_comm]

/-- An integer literal is followed as far as it goes. -/
theorem le_int (hnumber : IntegerText number)
    (hsuffix : ∀ d ∈ suffix, IntegerLiteral.isSuffix d = true) (rest : List Char) :
    (number ++ suffix).length ≤ int (number ++ suffix ++ rest) := by
  have hsuffixLe : suffix.length ≤ intSuffix (suffix ++ rest) := le_run hsuffix rest
  cases hnumber with
  | @hexadecimal letter digits hletter hne hdigits =>
      have hle := le_run_add intSuffix hdigits
        (fun d hd => not_isHexadecimal_of_isSuffix (hsuffix d (List.mem_of_mem_head? hd))) hsuffixLe
      simp only [List.cons_append, List.append_assoc, List.length_cons, List.length_append]
      rw [int, intDigits_hexadecimal hletter hne hdigits, if_neg (Nat.succ_ne_zero _),
        List.drop_succ_cons, List.drop_succ_cons]
      omega
  | decimal hne hdigits =>
      by_cases hhex : hexDigits (number ++ suffix ++ rest) = 0
      · have hle := le_run_add intSuffix hdigits
          (fun d hd => not_isDecimal_of_isSuffix (hsuffix d (List.mem_of_mem_head? hd))) hsuffixLe
        have hpos := le_run hdigits (suffix ++ rest)
        have hlength := List.length_pos_iff.2 hne
        rw [int, intDigits, if_pos hhex, decimals, List.append_assoc, List.length_append,
          if_neg (by omega)]
        exact hle
      · -- a zero in front of a hexadecimal literal, which is longer
        have hone := length_le_one_of_hexDigits (List.forall_mem_append.2
          ⟨fun d hd => .inl (hdigits d hd), fun d hd => .inr (hsuffix d hd)⟩) hhex
        rw [int, intDigits, if_neg hhex, if_neg (by omega)]
        omega

/-! ### String literals -/

/-- A string literal ends with the first quote that no backslash takes along, whatever follows. -/
theorem stringRest_append {body : List Char} (hbody : StringBody body) (rest : List Char) :
    stringRest (body ++ '"' :: rest) = some (body.length + 1) := by
  induction hbody with
  | nil => rfl
  | @plain c cs hquote hslash hfeed _ ih =>
      rw [List.cons_append, stringRest, if_neg (not_or.2 ⟨hfeed, hslash⟩), ih]
      · rfl
      · exact hquote
      · exact fun _ _ heq => absurd heq hslash
  | @escaped c cs hfeed _ ih =>
      rw [List.cons_append, List.cons_append, stringRest, if_neg hfeed, ih]
      rfl

theorem string_append {body : List Char} (hbody : StringBody body) (rest : List Char) :
    string ('"' :: (body ++ ['"']) ++ rest) = ('"' :: (body ++ ['"'])).length := by
  rw [List.cons_append, List.append_assoc, List.singleton_append, string, stringRest_append hbody]
  simp [Nat.add_comm]

/-! ### Marks -/

/-- **A mark stands in the table in front of those that it begins with.** -/
theorem all_pairwise :
    Mark.all.Pairwise fun m m' => ¬ m.spelling.toList <+: m'.spelling.toList := by
  decide +kernel

/-- The first mark of the table that is there is longer than all others that are there. -/
theorem lt_mark {m : Mark} (hm : m.spelling.toList <+: cs) :
    ∃ m', mark cs = some m' ∧ (m = m' ∨ m.spelling.toList.length < m'.spelling.toList.length) := by
  cases hfound : mark cs with
  | none =>
      have hnone := List.find?_eq_none.1 hfound m (Mark.mem_all m)
      exact absurd (List.isPrefixOf_iff_prefix.2 hm) hnone
  | some m' =>
      refine ⟨m', rfl, ?_⟩
      obtain ⟨-, earlier, later, hall, hearlier⟩ := List.find?_eq_some_iff_append.1 hfound
      have hmem : m ∈ earlier ++ m' :: later := hall ▸ Mark.mem_all m
      have hpairwise := all_pairwise
      rw [hall, List.pairwise_append, List.pairwise_cons] at hpairwise
      rcases List.mem_append.1 hmem with hmem | hmem
      · have hfront := hearlier m hmem
        rw [List.isPrefixOf_iff_prefix.2 hm] at hfront
        contradiction
      rcases List.mem_cons.1 hmem with rfl | hmem
      · exact .inl rfl
      · -- the earlier mark is no front of the later one, but both are fronts of the text
        have hstops := hpairwise.2.1.1 m hmem
        refine .inr (Nat.lt_of_not_le fun hle => hstops ?_)
        exact List.prefix_of_prefix_length_le (front_of_mark hfound) hm hle

/-! ### How the kinds begin -/

theorem not_startsName_of_isDecimal (h : isDecimal c = true) : startsName c = false := by
  obtain ⟨hlow, hhigh⟩ := Bool.and_eq_true_iff.1 h
  have hge : 48 ≤ c.toNat := of_decide_eq_true hlow
  have hle : c.toNat ≤ 57 := of_decide_eq_true hhigh
  by_contra hstart
  rcases Bool.or_eq_true_iff.1 (eq_true_of_ne_false hstart) with hletter | hline
  · rcases Bool.or_eq_true_iff.1 hletter with hlower | hupper
    · have hbound : 97 ≤ c.toNat := of_decide_eq_true (Bool.and_eq_true_iff.1 hlower).1
      omega
    · have hbound : 65 ≤ c.toNat := of_decide_eq_true (Bool.and_eq_true_iff.1 hupper).1
      omega
  · obtain rfl := beq_iff_eq.1 hline
    contradiction

theorem word_eq_zero (h : ∀ d ∈ cs.head?, startsName d = false) : word cs = 0 := by
  cases cs with
  | nil => rfl
  | cons c cs => exact if_neg (by simp [h c rfl])

theorem decimals_eq_zero (h : ∀ d ∈ cs.head?, isDecimal d = false) : decimals cs = 0 := run_eq_zero h

theorem float_eq_zero (h : ∀ d ∈ cs.head?, isDecimal d = false ∧ d ≠ '.') : float cs = 0 := by
  have hdecimals := decimals_eq_zero fun d hd => (h d hd).1
  have hplain : ∀ r, cs.drop (decimals cs) ≠ '.' :: r := by
    rw [hdecimals, List.drop_zero]
    rintro r rfl
    exact (h '.' rfl).2 rfl
  rw [float_of_plain hplain, if_pos (.inl hdecimals)]

theorem int_eq_zero (h : ∀ d ∈ cs.head?, isDecimal d = false) : int cs = 0 := by
  have hhex : hexDigits cs = 0 := by
    unfold hexDigits
    split
    · exact absurd (h '0' rfl) (by decide)
    · rfl
  have hdigits : intDigits cs = 0 := by rw [intDigits, if_pos hhex, decimals_eq_zero h]
  rw [int, if_pos hdigits]

theorem string_eq_zero (h : ∀ d ∈ cs.head?, d ≠ '"') : string cs = 0 := by
  unfold string
  split
  · exact absurd rfl (h '"' rfl)
  · rfl

/-- What a mark begins with. -/
theorem head_spelling (m : Mark) : ∀ d ∈ m.spelling.toList.head?,
    startsName d = false ∧ isDecimal d = false ∧ d ≠ '"' ∧ (d = '.' → m.spelling.length = 1) := by
  cases m <;> rintro _ ⟨⟩ <;> decide

theorem word_number (hnumber : NumberText number) (rest : List Char) : word (number ++ rest) = 0 := by
  refine word_eq_zero fun d hd => ?_
  obtain ⟨c, digits, rfl⟩ := List.exists_cons_of_ne_nil hnumber.ne_nil
  rcases hnumber.head d hd with hdecimal | rfl
  · exact not_startsName_of_isDecimal hdecimal
  · decide

theorem word_integer (hnumber : IntegerText number) (rest : List Char) : word (number ++ rest) = 0 := by
  refine word_eq_zero fun d hd => ?_
  obtain ⟨c, digits, rfl⟩ := List.exists_cons_of_ne_nil hnumber.ne_nil
  exact not_startsName_of_isDecimal (hnumber.head d hd)

/-- The digits of a floating-point literal go on with a point or an exponent. -/
theorem exists_of_float (h : float cs ≠ 0) : decimals cs < float cs ∧ 2 ≤ float cs ∧
    ∃ d rest, cs.drop (decimals cs) = d :: rest ∧ (d = '.' ∨ d = 'e' ∨ d = 'E') := by
  by_cases hpoint : ∃ rest, cs.drop (decimals cs) = '.' :: rest
  · obtain ⟨rest, hrest⟩ := hpoint
    rw [float_of_point hrest] at h ⊢
    have hnone : ¬ (decimals cs = 0 ∧ decimals rest = 0) := fun hzero => h (if_pos hzero)
    rw [if_neg hnone]
    exact ⟨by omega, by omega, '.', rest, hrest, .inl rfl⟩
  · rw [float_of_plain fun rest hrest => hpoint ⟨rest, hrest⟩] at h ⊢
    have hnone : ¬ (decimals cs = 0 ∨ exponent (cs.drop (decimals cs)) = 0) :=
      fun hzero => h (if_pos hzero)
    rw [if_neg hnone]
    obtain ⟨hdigits, hexponent⟩ := not_or.1 hnone
    have htail : exponent (cs.drop (decimals cs)) ≤ floatTail (cs.drop (decimals cs)) :=
      Nat.le_add_right _ _
    refine ⟨by omega, by omega, ?_⟩
    unfold exponent at hexponent
    split at hexponent
    · next letter rest heq =>
        refine ⟨letter, rest, heq, .inr ?_⟩
        by_contra hletter
        exact hexponent (if_neg hletter)
    · contradiction

/-- Where a floating-point literal is, an integer literal is nothing but its digits in front. -/
theorem int_lt_float (h : float cs ≠ 0) : int cs < float cs := by
  obtain ⟨hlt, -, d, rest, hdrop, hd⟩ := exists_of_float h
  have hhex : hexDigits cs = 0 := by
    unfold hexDigits
    split
    · next letter xs =>
        -- the digits would end at the letter, and no floating-point literal goes on with it
        by_contra hsome
        have hletter : letter = 'x' ∨ letter = 'X' := by
          by_contra hne
          exact hsome (if_neg hne)
        have hstop : decimals ('0' :: letter :: xs) = 1 :=
          run_append (v := ['0']) (List.forall_mem_singleton.2 (by decide))
            (by rintro _ ⟨⟩; rcases hletter with rfl | rfl <;> decide)
        rw [hstop] at hdrop
        obtain ⟨rfl, -⟩ := List.cons.inj hdrop
        rcases hletter with rfl | rfl <;> exact absurd hd (by decide)
    · rfl
  have hsuffix : intSuffix (d :: rest) = 0 :=
    run_eq_zero (by rintro _ ⟨⟩; rcases hd with rfl | rfl | rfl <;> decide)
  rw [int, intDigits, if_pos hhex, hdrop, hsuffix]
  split <;> omega

/-! ### The longest token -/

/-- A front of the text that is written like a token of the kind, and no longer front is written like a
token of any kind. -/
structure Longest (kind : TokenKind) (v cs : List Char) : Prop where
  written : kind.Written v
  front : v <+: cs
  le_length : ∀ {kind' : TokenKind} {v' : List Char}, kind'.Written v' → v' <+: cs →
    v'.length ≤ v.length

variable {kind : TokenKind} {n : Nat}

/-- What is cut as a token is no longer than the longest. -/
theorem Longest.le (h : Longest kind v cs) {kind' : TokenKind} (hn : InLine cs n)
    (hwritten : n ≠ 0 → kind'.Written (cs.take n)) : n ≤ v.length := by
  by_cases hzero : n = 0
  · omega
  · rw [← List.length_take_of_le hn.le_length]
    exact h.le_length (hwritten hzero) (List.take_prefix n cs)

theorem Longest.word_le (h : Longest kind v cs) : word cs ≤ v.length :=
  h.le (inLine_word cs) written_word

theorem Longest.float_le (h : Longest kind v cs) : float cs ≤ v.length :=
  h.le (inLine_float cs) written_float

theorem Longest.int_le (h : Longest kind v cs) : int cs ≤ v.length :=
  h.le (inLine_int cs) written_int

/-! ### The first kind that is there -/

theorem token_of_word (h : word cs ≠ 0) :
    token cs = some (.ofWord (String.ofList (cs.take (word cs))), word cs) := if_pos h

theorem token_of_float (hword : word cs = 0) (h : float cs ≠ 0) :
    token cs = some (.float, float cs) := by
  rw [token, if_neg (not_not.2 hword), if_pos h]

theorem token_of_int (hword : word cs = 0) (hfloat : float cs = 0) (h : int cs ≠ 0) :
    token cs = some (.int, int cs) := by
  rw [token, if_neg (not_not.2 hword), if_neg (not_not.2 hfloat), if_pos h]

theorem token_of_string (hword : word cs = 0) (hfloat : float cs = 0) (hint : int cs = 0)
    (h : string cs ≠ 0) : token cs = some (.string, string cs) := by
  rw [token, if_neg (not_not.2 hword), if_neg (not_not.2 hfloat), if_neg (not_not.2 hint), if_pos h]

theorem token_of_mark {m : Mark} (hword : word cs = 0) (hfloat : float cs = 0) (hint : int cs = 0)
    (hstring : string cs = 0) (h : mark cs = some m) :
    token cs = some (.mark m, m.spelling.length) := by
  rw [token, if_neg (not_not.2 hword), if_neg (not_not.2 hfloat), if_neg (not_not.2 hint),
    if_neg (not_not.2 hstring), h, Option.map_some]

/-! ### The longest is the first -/

theorem token_longest_word {w : List Char} (hstart : startsName c = true)
    (hw : ∀ d ∈ w, continuesName d = true) (h : Longest kind (c :: w) cs) :
    token cs = some (.ofWord (String.ofList (c :: w)), (c :: w).length) := by
  obtain ⟨rest, rfl⟩ := h.front
  have heq : word (c :: w ++ rest) = (c :: w).length :=
    Nat.le_antisymm h.word_le (le_word hstart hw rest)
  rw [token_of_word (heq ▸ Nat.succ_ne_zero _), heq, List.take_left]

theorem token_longest_float (hnumber : NumberText number) (hsuffix : SuffixText suffix)
    (h : Longest kind (number ++ suffix) cs) : token cs = some (.float, (number ++ suffix).length) := by
  obtain ⟨rest, rfl⟩ := h.front
  have heq := Nat.le_antisymm h.float_le (le_float hnumber hsuffix rest)
  have hpos := List.length_pos_iff.2 h.written.ne_nil
  have hword : word (number ++ suffix ++ rest) = 0 := List.append_assoc .. ▸ word_number hnumber _
  rw [token_of_float hword (by omega), heq]

theorem token_longest_int (hnumber : IntegerText number)
    (hsuffix : ∀ d ∈ suffix, IntegerLiteral.isSuffix d = true)
    (h : Longest kind (number ++ suffix) cs) : token cs = some (.int, (number ++ suffix).length) := by
  obtain ⟨rest, rfl⟩ := h.front
  have hle := le_int hnumber hsuffix rest
  have hpos := List.length_pos_iff.2 h.written.ne_nil
  have hword : word (number ++ suffix ++ rest) = 0 := List.append_assoc .. ▸ word_integer hnumber _
  have hfloat : float (number ++ suffix ++ rest) = 0 := by
    by_contra hne
    have hlt := int_lt_float hne
    have hfloatLe := h.float_le
    omega
  rw [token_of_int hword hfloat (by omega), Nat.le_antisymm h.int_le hle]

theorem token_longest_string {body : List Char} (hbody : StringBody body)
    (h : Longest kind ('"' :: (body ++ ['"'])) cs) :
    token cs = some (.string, ('"' :: (body ++ ['"'])).length) := by
  obtain ⟨rest, rfl⟩ := h.front
  have hhead : ∀ d ∈ ('"' :: (body ++ ['"']) ++ rest).head?, d = '"' := by
    rintro _ ⟨⟩
    rfl
  have heq := string_append hbody rest
  rw [token_of_string (word_eq_zero fun d hd => hhead d hd ▸ by decide)
    (float_eq_zero fun d hd => hhead d hd ▸ by decide)
    (int_eq_zero fun d hd => hhead d hd ▸ by decide) (heq ▸ Nat.succ_ne_zero _), heq]

theorem token_longest_mark {m : Mark} (h : Longest kind m.spelling.toList cs) :
    token cs = some (.mark m, m.spelling.toList.length) := by
  obtain ⟨c, w, hw⟩ := List.exists_cons_of_ne_nil h.written.ne_nil
  obtain ⟨rest, hrest⟩ := h.front
  have hcs : cs.head? = some c := by rw [← hrest, hw]; rfl
  obtain ⟨hstart, hdecimal, hquote, hpoint⟩ := head_spelling m c (by rw [hw]; rfl)
  have hhead : ∀ d ∈ cs.head?, d = c := fun d hd => Option.some.inj (hd.symm.trans hcs)
  have hfloat : float cs = 0 := by
    by_cases hc : c = '.'
    · -- a number with a point in front is longer than the point
      by_contra hne
      have htwo := (exists_of_float hne).2.1
      have hle := h.float_le
      rw [String.length_toList, hpoint hc] at hle
      omega
    · exact float_eq_zero fun d hd => hhead d hd ▸ ⟨hdecimal, hc⟩
  obtain ⟨m', hm', hlonger⟩ := lt_mark h.front
  have hle := h.le_length (.mark m') (front_of_mark hm')
  obtain rfl : m = m' := hlonger.resolve_right (Nat.not_lt_of_le hle)
  rw [String.length_toList]
  exact token_of_mark (word_eq_zero fun d hd => hhead d hd ▸ hstart) hfloat
    (int_eq_zero fun d hd => hhead d hd ▸ hdecimal)
    (string_eq_zero fun d hd => hhead d hd ▸ hquote) hm'

/-- **The longest front that is written like a token is the token.** -/
theorem token_of_longest (h : Longest kind v cs) : token cs = some (kind, v.length) := by
  cases h.written with
  | word hstart hw => exact token_longest_word hstart hw h
  | float hnumber hsuffix => exact token_longest_float hnumber hsuffix h
  | int hnumber hsuffix => exact token_longest_int hnumber hsuffix h
  | string hbody => exact token_longest_string hbody h
  | mark m => exact token_longest_mark h

/-- Where something is written like a token there is a longest. -/
theorem exists_longest (hv : kind.Written v) (hfront : v <+: cs) :
    ∃ kind' v', Longest kind' v' cs := by
  -- a longer one leaves less of the text behind it
  induction hleft : cs.length - v.length using Nat.strong_induction_on generalizing kind v with
  | _ left ih =>
      by_cases hlonger : ∃ kind' v', TokenKind.Written kind' v' ∧ v' <+: cs ∧ v.length < v'.length
      · obtain ⟨kind', v', hv', hfront', hlt⟩ := hlonger
        have hle := hfront'.length_le
        exact ih _ (by omega) hv' hfront' rfl
      · exact ⟨kind, v, hv, hfront, fun hv' hfront' =>
          Nat.le_of_not_lt fun hlt => hlonger ⟨_, _, hv', hfront', hlt⟩⟩

/-- **The token in front is the longest that is written like one.** -/
theorem token_eq_some_iff :
    token cs = some (kind, n) ↔ ∃ v, Longest kind v cs ∧ v.length = n := by
  constructor
  · intro h
    obtain ⟨kind', v, hlongest⟩ := exists_longest (written_of_token h) (List.take_prefix n cs)
    rw [token_of_longest hlongest] at h
    obtain ⟨rfl, hn⟩ := Prod.mk.inj (Option.some.inj h)
    exact ⟨v, hlongest, hn⟩
  · rintro ⟨v, hlongest, rfl⟩
    exact token_of_longest hlongest

/-- **There is no token in front where nothing is written like one.** -/
theorem token_eq_none_iff :
    token cs = none ↔ ∀ {kind : TokenKind} {v : List Char}, kind.Written v → ¬ v <+: cs := by
  constructor
  · intro h kind v hv hfront
    obtain ⟨kind', v', hlongest⟩ := exists_longest hv hfront
    rw [token_of_longest hlongest] at h
    contradiction
  · intro h
    cases htoken : token cs with
    | none => rfl
    | some found => exact absurd (List.take_prefix found.2 cs) (h (written_of_token htoken))

/-- No other kind is written like the longest. -/
theorem Longest.unique (h : Longest kind v cs) {kind' : TokenKind} {v' : List Char}
    (hv' : kind'.Written v') (hfront' : v' <+: cs) (hlength : v.length ≤ v'.length) :
    kind' = kind ∧ v' = v := by
  have hlongest : Longest kind' v' cs := ⟨hv', hfront', fun hw hf => (h.le_length hw hf).trans hlength⟩
  have htoken := token_of_longest h
  rw [token_of_longest hlongest] at htoken
  obtain ⟨hkind, heq⟩ := Prod.mk.inj (Option.some.inj htoken)
  exact ⟨hkind, (List.prefix_of_prefix_length_le hfront' h.front heq.le).eq_of_length heq⟩

end Lexeme

namespace TokenStream

open Lexeme

variable {file : UInt16} {front rest : List Char} {parts : List (Token × List Char)}

/-- Every token that was cut from a text in front of a rest is the longest at its place. -/
def Greedy (parts : List (Token × List Char)) (rest : List Char) : Prop :=
  ∀ {before t behind after}, parts = before ++ (t, behind) :: after →
    Longest t.kind t.text.toList (t.text.toList ++ (behind ++ (written after ++ rest)))

theorem Factored.greedy {line : Nat} {cs : List Char} (h : Factored file line cs front parts rest) :
    Greedy parts rest := by
  intro before t behind after hparts
  obtain ⟨v, hlongest, hlength⟩ := token_eq_some_iff.1 (h.cut hparts).token_eq
  have hfront := List.prefix_append t.text.toList (behind ++ (written after ++ rest))
  obtain rfl : v = t.text.toList :=
    (List.prefix_of_prefix_length_le hlongest.front hfront hlength.le).eq_of_length hlength
  exact hlongest

/-- **Tokens are the longest possible.**  A source text is taken apart into its tokens and what is
skipped, and every token is the longest front that is written like a token of any kind; or it is so up
to a character that nothing written like a token begins with. -/
theorem ofSource_longest (source : String) (file : UInt16) :
    (∃ s front parts, ofSource source file = .ok s ∧
      Factored file 1 source.toList front parts [] ∧ parts.map Prod.fst = s.tokens ∧
      Greedy parts []) ∨
    ∃ front parts c rest line, ofSource source file = .error
        ⟨.unrecognisedToken c.toString, ⟨line, file⟩⟩ ∧
      Factored file 1 source.toList front parts (c :: rest) ∧ Greedy parts (c :: rest) ∧
      gap (c :: rest) = 0 ∧
      ∀ {kind : TokenKind} {v : List Char}, kind.Written v → ¬ v <+: c :: rest := by
  have haccounted : Accounted file 1 source.toList (ofSource source file) := accounted_scan ..
  cases hscan : ofSource source file with
  | ok s =>
      rw [hscan] at haccounted
      obtain ⟨front, parts, hfactored, htokens, -⟩ := haccounted
      exact .inl ⟨s, front, parts, rfl, hfactored, htokens, hfactored.greedy⟩
  | error d =>
      rw [hscan] at haccounted
      obtain ⟨front, parts, c, rest, hfactored, hgap, htoken, rfl⟩ := haccounted
      exact .inr ⟨front, parts, c, rest, _, rfl, hfactored, hfactored.greedy, hgap,
        token_eq_none_iff.1 htoken⟩

end TokenStream

end ShaderLang
