import WinProcessThread.TcpClient.CommandLoop

/-!
# The addresses that `connect` accepts

The pattern of `ThreadProc` describes four numbers of at most 255 with one to three digits each,
separated by dots.
-/

namespace WinProcessThread.TcpClient

open Text

/-- One to three digits with a value of at most 255. -/
structure IsGroup (group : List Char) : Prop where
  nonempty : 0 < group.length
  length : group.length ≤ 3
  digits : ∀ char ∈ group, char.isDigit = true
  value : Nat.ofDigitChars 10 group 0 ≤ 255

theorem char_le_iff {first second : Char} : first ≤ second ↔ first.toNat ≤ second.toNat :=
  Iff.rfl

theorem isDigit_iff {char : Char} : char.isDigit = true ↔ 48 ≤ char.toNat ∧ char.toNat ≤ 57 := by
  simp [Char.isDigit, UInt32.le_iff_toNat_le]

/-- The first alternative of the pattern for one number: from 250 to 255. -/
theorem highOctet_matches_iff {group : List Char} :
    (Regex.seq (.literal "25".toList) (.range '0' '5')).Matches group ↔
      ∃ char, group = ['2', '5', char] ∧ '0' ≤ char ∧ char ≤ '5' := by
  simp only [Regex.Matches, Regex.matches_range, Regex.matches_literal]
  constructor
  · rintro ⟨_, _, rfl, rfl, char, rfl, hchar⟩
    exact ⟨char, rfl, hchar⟩
  · rintro ⟨char, rfl, hchar⟩
    exact ⟨"25".toList, [char], rfl, rfl, char, rfl, hchar⟩

/-- The second alternative: from 200 to 249. -/
theorem middleOctet_matches_iff {group : List Char} :
    (Regex.seq (.literal "2".toList) (.seq (.range '0' '4') (.range '0' '9'))).Matches group ↔
      ∃ second third, group = ['2', second, third] ∧ ('0' ≤ second ∧ second ≤ '4') ∧
        '0' ≤ third ∧ third ≤ '9' := by
  simp only [Regex.Matches, Regex.matches_range, Regex.matches_literal]
  constructor
  · rintro ⟨_, _, rfl, rfl, _, _, rfl, ⟨second, rfl, hsecond⟩, third, rfl, hthird⟩
    exact ⟨second, third, rfl, hsecond, hthird⟩
  · rintro ⟨second, third, rfl, hsecond, hthird⟩
    exact ⟨"2".toList, [second, third], rfl, rfl, [second], [third], rfl, ⟨second, rfl, hsecond⟩,
      third, rfl, hthird⟩

/-- The last alternative: at most 199, with optional digits in front and at the end. -/
theorem lowOctet_matches_iff {group : List Char} :
    (Regex.seq (.optional (.range '0' '1'))
        (.seq (.range '0' '9') (.optional (.range '0' '9')))).Matches group ↔
      ∃ front char back, group = front ++ char :: back ∧
        ((∃ first, front = [first] ∧ '0' ≤ first ∧ first ≤ '1') ∨ front = []) ∧
        ('0' ≤ char ∧ char ≤ '9') ∧
        ((∃ last, back = [last] ∧ '0' ≤ last ∧ last ≤ '9') ∨ back = []) := by
  simp only [Regex.Matches, Regex.matches_range, Regex.matches_optional]
  constructor
  · rintro ⟨front, _, rfl, hfront, _, back, rfl, ⟨char, rfl, hchar⟩, hback⟩
    exact ⟨front, char, back, rfl, hfront, hchar, hback⟩
  · rintro ⟨front, char, back, rfl, hfront, hchar, hback⟩
    exact ⟨front, char :: back, rfl, hfront, [char], back, rfl, ⟨char, rfl, hchar⟩, hback⟩

theorem octetPattern_matches_iff {group : List Char} :
    octetPattern.Matches group ↔
      (∃ char, group = ['2', '5', char] ∧ '0' ≤ char ∧ char ≤ '5') ∨
      (∃ second third, group = ['2', second, third] ∧ ('0' ≤ second ∧ second ≤ '4') ∧
        '0' ≤ third ∧ third ≤ '9') ∨
      ∃ front char back, group = front ++ char :: back ∧
        ((∃ first, front = [first] ∧ '0' ≤ first ∧ first ≤ '1') ∨ front = []) ∧
        ('0' ≤ char ∧ char ≤ '9') ∧
        ((∃ last, back = [last] ∧ '0' ≤ last ∧ last ≤ '9') ∨ back = []) :=
  or_congr highOctet_matches_iff (or_congr middleOctet_matches_iff lowOctet_matches_iff)

theorem isGroup_one {char : Char} : IsGroup [char] ↔ 48 ≤ char.toNat ∧ char.toNat ≤ 57 := by
  constructor
  · intro hgroup
    exact isDigit_iff.mp (hgroup.digits char (List.mem_singleton_self _))
  · intro hdigit
    refine ⟨by simp, by simp, by simpa [isDigit_iff] using hdigit, ?_⟩
    simp only [Nat.ofDigitChars_cons, Nat.ofDigitChars_nil, Char.reduceToNat]
    omega

theorem isGroup_two {first second : Char} :
    IsGroup [first, second] ↔
      (48 ≤ first.toNat ∧ first.toNat ≤ 57) ∧ 48 ≤ second.toNat ∧ second.toNat ≤ 57 := by
  constructor
  · intro hgroup
    exact ⟨isDigit_iff.mp (hgroup.digits first (by simp)),
      isDigit_iff.mp (hgroup.digits second (by simp))⟩
  · intro hdigits
    refine ⟨by simp, by simp, by simpa [isDigit_iff] using hdigits, ?_⟩
    simp only [Nat.ofDigitChars_cons, Nat.ofDigitChars_nil, Char.reduceToNat]
    omega

theorem isGroup_three {first second third : Char} :
    IsGroup [first, second, third] ↔
      ((48 ≤ first.toNat ∧ first.toNat ≤ 57) ∧ (48 ≤ second.toNat ∧ second.toNat ≤ 57) ∧
        48 ≤ third.toNat ∧ third.toNat ≤ 57) ∧
      100 * (first.toNat - 48) + 10 * (second.toNat - 48) + (third.toNat - 48) ≤ 255 := by
  have hvalue : Nat.ofDigitChars 10 [first, second, third] 0 =
      100 * (first.toNat - 48) + 10 * (second.toNat - 48) + (third.toNat - 48) := by
    simp only [Nat.ofDigitChars_cons, Nat.ofDigitChars_nil, Char.reduceToNat]
    omega
  rw [← hvalue]
  constructor
  · intro hgroup
    have hdigits := hgroup.digits
    simp only [List.forall_mem_cons, isDigit_iff] at hdigits
    exact ⟨⟨hdigits.1, hdigits.2.1, hdigits.2.2.1⟩, hgroup.value⟩
  · rintro ⟨hdigits, hle⟩
    exact ⟨by simp, by simp, by simpa [isDigit_iff] using hdigits, hle⟩

theorem isGroup_of_octetPattern {group : List Char} (hmatches : octetPattern.Matches group) :
    IsGroup group := by
  simp only [octetPattern_matches_iff, char_le_iff, Char.reduceToNat] at hmatches
  rcases hmatches with ⟨char, rfl, hchar⟩ | ⟨second, third, rfl, hsecond, hthird⟩ |
    ⟨front, char, back, rfl, hfront, hchar, hback⟩
  · rw [isGroup_three]
    simp only [Char.reduceToNat]
    omega
  · rw [isGroup_three]
    simp only [Char.reduceToNat]
    omega
  · rcases hfront with ⟨first, rfl, hfirst⟩ | rfl
    · rcases hback with ⟨last, rfl, hlast⟩ | rfl
      · rw [List.singleton_append, isGroup_three]
        omega
      · rw [List.singleton_append, isGroup_two]
        omega
    · rcases hback with ⟨last, rfl, hlast⟩ | rfl
      · rw [List.nil_append, isGroup_two]
        omega
      · rw [List.nil_append, isGroup_one]
        omega

/-- A number of three digits starts with 25, with another 2 or with a smaller digit. -/
theorem octetPattern_of_isGroup {group : List Char} (hgroup : IsGroup group) :
    octetPattern.Matches group := by
  simp only [octetPattern_matches_iff, char_le_iff, Char.reduceToNat]
  match group, hgroup with
  | [], hgroup => exact absurd hgroup.nonempty (by simp)
  | [char], hgroup =>
    exact .inr (.inr ⟨[], char, [], rfl, .inr rfl, isGroup_one.mp hgroup, .inr rfl⟩)
  | [first, second], hgroup =>
    obtain ⟨hfirst, hsecond⟩ := isGroup_two.mp hgroup
    exact .inr (.inr ⟨[], first, [second], rfl, .inr rfl, hfirst, .inl ⟨second, rfl, hsecond⟩⟩)
  | [first, second, third], hgroup =>
    obtain ⟨⟨hfirst, hsecond, hthird⟩, hvalue⟩ := isGroup_three.mp hgroup
    by_cases hlow : first.toNat ≤ 49
    · exact .inr (.inr ⟨[first], second, [third], rfl, .inl ⟨first, rfl, hfirst.1, hlow⟩, hsecond,
        .inl ⟨third, rfl, hthird⟩⟩)
    · have htwo : first = '2' := Char.toNat_inj.mp (by simp only [Char.reduceToNat]; omega)
      by_cases hfour : second.toNat ≤ 52
      · exact .inr (.inl ⟨second, third, by rw [htwo], ⟨hsecond.1, hfour⟩, hthird⟩)
      · have hfive : second = '5' := Char.toNat_inj.mp (by simp only [Char.reduceToNat]; omega)
        exact .inl ⟨third, by rw [htwo, hfive], hthird.1, by omega⟩
  | _ :: _ :: _ :: _ :: rest, hgroup =>
    have hlength := hgroup.length
    simp only [List.length_cons] at hlength
    omega

theorem octetPattern_iff_isGroup {group : List Char} : octetPattern.Matches group ↔ IsGroup group :=
  ⟨isGroup_of_octetPattern, octetPattern_of_isGroup⟩

/-- Four groups with single dots between them. -/
def IsDotted (ip : List Char) : Prop :=
  ∃ groups : List (List Char), groups.length = 4 ∧ (∀ group ∈ groups, IsGroup group) ∧
    ip = List.intercalate ".".toList groups

/-- **Addresses.**  The pattern accepts exactly the addresses of four groups. -/
theorem isIPv4_iff_isDotted (ip : List Char) : isIPv4 ip = true ↔ IsDotted ip := by
  rw [isIPv4_iff_matches, addressPattern, Regex.matches_separated, IsDotted]
  simp only [octetPattern_iff_isGroup]

end WinProcessThread.TcpClient
