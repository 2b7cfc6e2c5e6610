import Mathlib.Data.List.Basic
import Mathlib.Data.Nat.Basic
import Mathlib.Order.Bounds.Basic
import Mathlib.Tactic.Basic

/-!
# Converting wide strings

`wcstombs` converts one wide character after the other and stops behind the terminator, at a
character that has no multibyte form, or when the next character does not fit.  What it reads is an
unbounded memory: nothing but a terminator or the limit stops it at the end of a string.  Of a
terminated string it stores the longest run of whole characters that can be converted and fit.
-/

namespace WinProcessThread.Text

/-- How a locale writes wide characters.  No character but the terminator has a zero byte. -/
structure Locale (Wide Byte : Type*) [Zero Wide] [Zero Byte] where
  convert : Wide → Option (List Byte)
  convert_ne_nil : ∀ wide bytes, convert wide = some bytes → bytes ≠ []
  zero_not_mem : ∀ wide bytes, wide ≠ 0 → convert wide = some bytes → 0 ∉ bytes

/-- What a conversion has stored and read.  The returned count leaves the terminator out; it is
missing when a character could not be converted. -/
structure Conversion (Byte : Type*) where
  stored : List Byte
  elementsRead : ℕ
  count : Option ℕ
deriving DecidableEq, Repr

variable {Wide Byte : Type*} [Zero Wide] [Zero Byte] [DecidableEq Wide]

/-- The conversion from the element at `index` on, with `stored` in the buffer.  A round stores at
least one byte, so as many rounds as bytes are enough. -/
def wcstombsLoop (locale : Locale Wide Byte) (source : ℕ → Wide) (limit : ℕ) :
    ℕ → ℕ → List Byte → Conversion Byte
  | 0, index, stored => ⟨stored, index, some stored.length⟩
  | rounds + 1, index, stored =>
    if limit ≤ stored.length then
      ⟨stored, index, some stored.length⟩
    else if source index = 0 then
      ⟨stored ++ [0], index + 1, some stored.length⟩
    else
      match locale.convert (source index) with
      | none => ⟨stored, index + 1, none⟩
      | some bytes =>
        if stored.length + bytes.length ≤ limit then
          wcstombsLoop locale source limit rounds (index + 1) (stored ++ bytes)
        else
          ⟨stored, index + 1, some stored.length⟩

/-- `wcstombs`. -/
def wcstombs (locale : Locale Wide Byte) (source : ℕ → Wide) (limit : ℕ) : Conversion Byte :=
  wcstombsLoop locale source limit limit 0 []

/-- The string in a buffer, if it is terminated there. -/
def cString [DecidableEq Byte] (buffer : List Byte) : Option (List Byte) :=
  if 0 ∈ buffer then some (buffer.takeWhile (· ≠ 0)) else none

/-! ## Characters that fit -/

variable {locale : Locale Wide Byte} {source : ℕ → Wide} {limit rounds index : ℕ}
variable {stored : List Byte} {encode : Wide → List Byte} {units : List Wide}

/-- These characters stand in the memory from `index` on. -/
def StandsIn (source : ℕ → Wide) (index : ℕ) (units : List Wide) : Prop :=
  ∀ offset, ∀ unit ∈ units[offset]?, source (index + offset) = unit

omit [Zero Wide] [DecidableEq Wide] in
theorem standsIn_cons {unit : Wide} {rest : List Wide} :
    StandsIn source index (unit :: rest) ↔
      source index = unit ∧ StandsIn source (index + 1) rest := by
  constructor
  · intro hstands
    refine ⟨hstands 0 unit rfl, fun offset other hother ↦ ?_⟩
    rw [Nat.add_assoc, Nat.add_comm 1]
    exact hstands (offset + 1) other hother
  · rintro ⟨hfirst, hrest⟩ offset other hother
    cases offset with
    | zero =>
      cases hother
      exact hfirst
    | succ offset =>
      rw [← Nat.add_assoc, Nat.add_right_comm]
      exact hrest offset other hother

/-- The locale writes these characters so, and none of them is a terminator. -/
def Encodes (locale : Locale Wide Byte) (encode : Wide → List Byte) (units : List Wide) : Prop :=
  ∀ unit ∈ units, unit ≠ 0 ∧ locale.convert unit = some (encode unit)

/-- A round that stores a character. -/
theorem wcstombsLoop_of_fits {bytes : List Byte} (hunit : source index ≠ 0)
    (hconvert : locale.convert (source index) = some bytes)
    (hfits : stored.length + bytes.length ≤ limit) :
    wcstombsLoop locale source limit (rounds + 1) index stored =
      wcstombsLoop locale source limit rounds (index + 1) (stored ++ bytes) := by
  have hbytes : 0 < bytes.length :=
    List.length_pos_iff.mpr (locale.convert_ne_nil _ _ hconvert)
  have hroom : ¬ limit ≤ stored.length := by omega
  rw [wcstombsLoop, if_neg hroom, if_neg hunit, hconvert]
  exact if_pos hfits

/-- A round at a character that cannot be stored. -/
theorem stored_of_blocked (hroom : stored.length < limit) (hunit : source index ≠ 0)
    (hblocked : ∀ bytes, locale.convert (source index) = some bytes →
      limit < stored.length + bytes.length) :
    (wcstombsLoop locale source limit (rounds + 1) index stored).stored = stored := by
  rw [wcstombsLoop, if_neg (not_le.mpr hroom), if_neg hunit]
  cases hconvert : locale.convert (source index) with
  | none => rfl
  | some bytes =>
    dsimp only
    rw [if_neg (not_le.mpr (hblocked bytes hconvert))]

/-- Characters that fit are stored one behind the other. -/
theorem wcstombsLoop_append (rounds : ℕ) (hencodes : Encodes locale encode units)
    (hstands : StandsIn source index units)
    (hfits : stored.length + (units.flatMap encode).length ≤ limit) :
    wcstombsLoop locale source limit (units.length + rounds) index stored =
      wcstombsLoop locale source limit rounds (index + units.length)
        (stored ++ units.flatMap encode) := by
  induction units generalizing index stored with
  | nil => simp
  | cons unit rest ih =>
    obtain ⟨⟨hunit, hconvert⟩, hrestEncodes⟩ := List.forall_mem_cons.mp hencodes
    obtain ⟨hfirst, hrest⟩ := standsIn_cons.mp hstands
    rw [List.flatMap_cons, List.length_append] at hfits
    have hround : stored.length + (encode unit).length ≤ limit := by omega
    have hnext : (stored ++ encode unit).length + (rest.flatMap encode).length ≤ limit := by
      rw [List.length_append]
      omega
    have hrounds : (unit :: rest).length + rounds = (rest.length + rounds) + 1 := by
      rw [List.length_cons]
      omega
    rw [← hfirst] at hunit
    calc
      wcstombsLoop locale source limit ((unit :: rest).length + rounds) index stored =
          wcstombsLoop locale source limit (rest.length + rounds) (index + 1)
            (stored ++ encode unit) := by
        rw [hrounds, wcstombsLoop_of_fits hunit (hfirst ▸ hconvert) hround]
      _ = wcstombsLoop locale source limit rounds (index + 1 + rest.length)
            (stored ++ encode unit ++ rest.flatMap encode) :=
        ih hrestEncodes hrest hnext
      _ = wcstombsLoop locale source limit rounds (index + (unit :: rest).length)
            (stored ++ (unit :: rest).flatMap encode) := by
        rw [List.flatMap_cons, List.append_assoc, List.length_cons, Nat.add_assoc, Nat.add_comm 1]

/-! ## What is read -/

theorem wcstombsLoop_of_full (hfull : limit ≤ stored.length) :
    wcstombsLoop locale source limit rounds index stored =
      ⟨stored, index, some stored.length⟩ := by
  cases rounds with
  | zero => rfl
  | succ rounds => rw [wcstombsLoop, if_pos hfull]

theorem le_elementsRead_wcstombsLoop :
    index ≤ (wcstombsLoop locale source limit rounds index stored).elementsRead := by
  induction rounds generalizing index stored with
  | zero => exact le_rfl
  | succ rounds ih =>
    rw [wcstombsLoop]
    split_ifs with hfull hzero
    · exact le_rfl
    · exact Nat.le_succ index
    · cases locale.convert (source index) with
      | none => exact Nat.le_succ index
      | some bytes =>
        dsimp only
        split_ifs with hfits
        · exact Nat.le_trans (Nat.le_succ index) ih
        · exact Nat.le_succ index

/-- As long as there is room, one more element is read. -/
theorem lt_elementsRead_wcstombsLoop (hroom : stored.length < limit) :
    index < (wcstombsLoop locale source limit (rounds + 1) index stored).elementsRead := by
  rw [wcstombsLoop, if_neg (not_le.mpr hroom)]
  split_ifs with hzero
  · exact Nat.lt_succ_self index
  · cases locale.convert (source index) with
    | none => exact Nat.lt_succ_self index
    | some bytes =>
      dsimp only
      split_ifs with hfits
      · exact le_elementsRead_wcstombsLoop
      · exact Nat.lt_succ_self index

/-! ## Whole strings -/

omit [DecidableEq Wide] in
theorem length_le_of_encodes (hencodes : Encodes locale encode units) :
    units.length ≤ (units.flatMap encode).length := by
  induction units with
  | nil => exact Nat.le_refl 0
  | cons unit rest ih =>
    obtain ⟨⟨-, hconvert⟩, hrest⟩ := List.forall_mem_cons.mp hencodes
    have hbytes : 0 < (encode unit).length :=
      List.length_pos_iff.mpr (locale.convert_ne_nil _ _ hconvert)
    have hle := ih hrest
    rw [List.length_cons, List.flatMap_cons, List.length_append]
    omega

/-- The rounds that are left when these characters have been converted. -/
theorem wcstombs_append (hencodes : Encodes locale encode units)
    (hstands : StandsIn source 0 units) (hfits : (units.flatMap encode).length ≤ limit) :
    wcstombs locale source limit =
      wcstombsLoop locale source limit (limit - units.length) units.length
        (units.flatMap encode) := by
  have hle : units.length ≤ limit := Nat.le_trans (length_le_of_encodes hencodes) hfits
  have hroom : ([] : List Byte).length + (units.flatMap encode).length ≤ limit := by
    rwa [List.length_nil, Nat.zero_add]
  have hrun := wcstombsLoop_append (limit - units.length) hencodes hstands hroom
  rw [Nat.add_sub_cancel' hle, Nat.zero_add, List.nil_append] at hrun
  exact hrun

/-- Characters that fill the buffer end the conversion without a terminator. -/
theorem wcstombs_of_full (hencodes : Encodes locale encode units)
    (hstands : StandsIn source 0 units) (hfull : (units.flatMap encode).length = limit) :
    wcstombs locale source limit = ⟨units.flatMap encode, units.length, some limit⟩ := by
  rw [wcstombs_append hencodes hstands (Nat.le_of_eq hfull),
    wcstombsLoop_of_full (Nat.le_of_eq hfull.symm), hfull]

/-- Characters that leave room are read past. -/
theorem lt_elementsRead_wcstombs (hencodes : Encodes locale encode units)
    (hstands : StandsIn source 0 units) (hroom : (units.flatMap encode).length < limit) :
    units.length < (wcstombs locale source limit).elementsRead := by
  have hlt : units.length < limit := Nat.lt_of_le_of_lt (length_le_of_encodes hencodes) hroom
  obtain ⟨rounds, hrounds⟩ : ∃ rounds, limit - units.length = rounds + 1 :=
    Nat.exists_eq_succ_of_ne_zero (by omega)
  rw [wcstombs_append hencodes hstands (Nat.le_of_lt hroom), hrounds]
  exact lt_elementsRead_wcstombsLoop hroom

/-! ## The string in the buffer -/

theorem cString_append_zeros [DecidableEq Byte] {bytes : List Byte} (hbytes : 0 ∉ bytes) {count : ℕ}
    (hcount : 0 < count) : cString (bytes ++ List.replicate count 0) = some bytes := by
  obtain ⟨rest, rfl⟩ : ∃ rest, count = rest + 1 := Nat.exists_eq_succ_of_ne_zero (by omega)
  have hnonzero : ∀ byte ∈ bytes, decide (byte ≠ 0) = true := by
    intro byte hbyte
    rw [decide_eq_true_eq]
    exact ne_of_mem_of_not_mem hbyte hbytes
  rw [cString, if_pos (by simp), List.takeWhile_append_of_pos hnonzero, List.replicate_succ]
  simp

/-! ## Terminated strings -/

/-- What these characters are converted to, if all of them can be. -/
def converted (locale : Locale Wide Byte) : List Wide → Option (List Byte)
  | [] => some []
  | unit :: rest =>
    (locale.convert unit).bind fun bytes ↦ (converted locale rest).map (bytes ++ ·)

/-- So many characters at the beginning can be converted and fit. -/
def Fits (locale : Locale Wide Byte) (limit : ℕ) (units : List Wide) (count : ℕ) : Prop :=
  count ≤ units.length ∧
    ∃ bytes, converted locale (units.take count) = some bytes ∧ bytes.length ≤ limit

variable {unit : Wide} {rest : List Wide} {bytes : List Byte} {count : ℕ}

omit [DecidableEq Wide] in
theorem converted_cons (hconvert : locale.convert unit = some bytes) :
    converted locale (unit :: rest) = (converted locale rest).map (bytes ++ ·) := by
  rw [converted, hconvert, Option.bind_some]

omit [DecidableEq Wide] in
theorem converted_of_encodes (hencodes : Encodes locale encode units) :
    converted locale units = some (units.flatMap encode) := by
  induction units with
  | nil => rfl
  | cons unit rest ih =>
    obtain ⟨⟨-, hconvert⟩, hrest⟩ := List.forall_mem_cons.mp hencodes
    calc
      converted locale (unit :: rest) = (converted locale rest).map (encode unit ++ ·) :=
        converted_cons hconvert
      _ = some (encode unit ++ rest.flatMap encode) := by
        rw [ih hrest, Option.map_some]
      _ = some ((unit :: rest).flatMap encode) := by
        rw [List.flatMap_cons]

omit [DecidableEq Wide] in
theorem converted_append (front back : List Wide) :
    converted locale (front ++ back) =
      (converted locale front).bind fun bytes ↦ (converted locale back).map (bytes ++ ·) := by
  induction front with
  | nil => simp [converted]
  | cons unit front ih =>
    cases hconvert : locale.convert unit with
    | none =>
      rw [List.cons_append, converted, converted, hconvert, Option.bind_none, Option.bind_none,
        Option.bind_none]
    | some bytes =>
      rw [List.cons_append, converted_cons hconvert, converted_cons hconvert, ih]
      cases converted locale front with
      | none => rfl
      | some more => simp [Function.comp_def]

omit [DecidableEq Wide] in
/-- More characters are converted to no fewer bytes. -/
theorem length_converted_le {front : List Wide} {more : List Byte} (hfront : front <+: units)
    (hmore : converted locale front = some more) (hbytes : converted locale units = some bytes) :
    more.length ≤ bytes.length := by
  obtain ⟨back, rfl⟩ := hfront
  rw [converted_append, hmore, Option.bind_some, Option.map_eq_some_iff] at hbytes
  obtain ⟨last, -, rfl⟩ := hbytes
  rw [List.length_append]
  exact Nat.le_add_right _ _

omit [DecidableEq Wide] in
theorem zero_not_mem_converted (hunits : 0 ∉ units) (hbytes : converted locale units = some bytes) :
    0 ∉ bytes := by
  induction units generalizing bytes with
  | nil =>
    cases hbytes
    exact List.not_mem_nil
  | cons unit rest ih =>
    rw [List.mem_cons, not_or] at hunits
    obtain ⟨hunit, hrest⟩ := hunits
    cases hconvert : locale.convert unit with
    | none =>
      rw [converted, hconvert] at hbytes
      cases hbytes
    | some first =>
      rw [converted_cons hconvert, Option.map_eq_some_iff] at hbytes
      obtain ⟨more, hmore, rfl⟩ := hbytes
      rw [List.mem_append, not_or]
      exact ⟨locale.zero_not_mem unit first (Ne.symm hunit) hconvert, ih hrest hmore⟩

omit [DecidableEq Wide] in
theorem fits_zero : Fits locale limit units 0 :=
  ⟨Nat.zero_le _, [], by rw [List.take_zero]; rfl, Nat.zero_le _⟩

omit [DecidableEq Wide] in
theorem fits_of_prefix {front : List Wide} (hfront : front <+: units)
    (hbytes : converted locale front = some bytes) (hlength : bytes.length ≤ limit) :
    Fits locale limit units front.length := by
  refine ⟨hfront.length_le, bytes, ?_, hlength⟩
  rwa [← List.prefix_iff_eq_take.mp hfront]

omit [DecidableEq Wide] in
/-- One more character in front takes its bytes from the room. -/
theorem fits_cons_iff (hconvert : locale.convert unit = some bytes) :
    Fits locale limit (unit :: rest) (count + 1) ↔
      bytes.length ≤ limit ∧ Fits locale (limit - bytes.length) rest count := by
  simp only [Fits, List.take_succ_cons, converted_cons hconvert, Option.map_eq_some_iff,
    List.length_cons, Nat.add_le_add_iff_right]
  constructor
  · rintro ⟨hcount, _, ⟨more, hmore, rfl⟩, hfits⟩
    rw [List.length_append] at hfits
    exact ⟨by omega, hcount, more, hmore, by omega⟩
  · rintro ⟨hfirst, hcount, more, hmore, hfits⟩
    refine ⟨hcount, bytes ++ more, ⟨more, hmore, rfl⟩, ?_⟩
    rw [List.length_append]
    omega

omit [DecidableEq Wide] in
theorem isGreatest_fits_nil : IsGreatest {count | Fits locale limit [] count} 0 := by
  constructor
  · exact fits_zero
  · intro count hcount
    exact hcount.1

omit [DecidableEq Wide] in
/-- Nothing fits when the first character does not. -/
theorem isGreatest_fits_zero
    (hfirst : ∀ bytes, locale.convert unit = some bytes → limit < bytes.length) :
    IsGreatest {count | Fits locale limit (unit :: rest) count} 0 := by
  constructor
  · exact fits_zero
  · intro count hcount
    cases count with
    | zero => exact le_rfl
    | succ count =>
      cases hconvert : locale.convert unit with
      | none =>
        obtain ⟨-, bytes, hbytes, -⟩ := hcount
        rw [List.take_succ_cons, converted, hconvert] at hbytes
        cases hbytes
      | some bytes =>
        exact absurd ((fits_cons_iff hconvert).mp hcount).1 (not_le.mpr (hfirst bytes hconvert))

omit [DecidableEq Wide] in
/-- Every character takes room. -/
theorem isGreatest_fits_of_no_room (units : List Wide) :
    IsGreatest {count | Fits locale 0 units count} 0 := by
  cases units with
  | nil => exact isGreatest_fits_nil
  | cons unit rest =>
    apply isGreatest_fits_zero
    intro bytes hconvert
    exact List.length_pos_iff.mpr (locale.convert_ne_nil unit bytes hconvert)

omit [DecidableEq Wide] in
theorem isGreatest_fits_cons (hconvert : locale.convert unit = some bytes)
    (hroom : bytes.length ≤ limit)
    (hrest : IsGreatest {count | Fits locale (limit - bytes.length) rest count} count) :
    IsGreatest {count | Fits locale limit (unit :: rest) count} (count + 1) := by
  constructor
  · exact (fits_cons_iff hconvert).mpr ⟨hroom, hrest.1⟩
  · intro other hother
    cases other with
    | zero => exact Nat.zero_le _
    | succ other =>
      exact Nat.succ_le_succ (hrest.2 ((fits_cons_iff hconvert).mp hother).2)

/-- What the loop adds to the buffer: the bytes of the longest run that fits, and a terminator if it
is reached with room for it. -/
def Adds (locale : Locale Wide Byte) (limit : ℕ) (units : List Wide) (stored after : List Byte) :
    Prop :=
  ∃ count bytes, IsGreatest {count | Fits locale (limit - stored.length) units count} count ∧
    converted locale (units.take count) = some bytes ∧
    (after = stored ++ bytes ∨
      after = stored ++ bytes ++ [0] ∧ (stored ++ bytes).length < limit)

omit [DecidableEq Wide] in
theorem adds_nothing
    (hgreatest : IsGreatest {count | Fits locale (limit - stored.length) units count} 0) :
    Adds locale limit units stored stored :=
  ⟨0, [], hgreatest, by rw [List.take_zero]; rfl, .inl (List.append_nil stored).symm⟩

omit [DecidableEq Wide] in
theorem Adds.cons {after : List Byte} (hconvert : locale.convert unit = some bytes)
    (hroom : stored.length + bytes.length ≤ limit)
    (hadds : Adds locale limit rest (stored ++ bytes) after) :
    Adds locale limit (unit :: rest) stored after := by
  obtain ⟨count, more, hgreatest, hmore, hafter⟩ := hadds
  rw [List.length_append, ← Nat.sub_sub] at hgreatest
  refine ⟨count + 1, bytes ++ more,
    isGreatest_fits_cons hconvert (by omega) hgreatest, ?_, ?_⟩
  · rw [List.take_succ_cons, converted_cons hconvert, hmore, Option.map_some]
  · rwa [← List.append_assoc]

theorem adds_of_full (units : List Wide) (hfull : limit ≤ stored.length) :
    Adds locale limit units stored
      (wcstombsLoop locale source limit rounds index stored).stored := by
  rw [wcstombsLoop_of_full hfull]
  apply adds_nothing
  rw [Nat.sub_eq_zero_of_le hfull]
  exact isGreatest_fits_of_no_room units

/-- The round at the terminator stores it. -/
theorem adds_of_zero (hroom : stored.length < limit) (hzero : source index = 0) :
    Adds locale limit [] stored
      (wcstombsLoop locale source limit (rounds + 1) index stored).stored := by
  rw [wcstombsLoop, if_neg (not_le.mpr hroom), if_pos hzero]
  refine ⟨0, [], isGreatest_fits_nil, rfl, .inr ⟨?_, ?_⟩⟩
  · rw [List.append_nil]
  · rwa [List.append_nil]

theorem wcstombsLoop_adds (rounds : ℕ) (hunits : 0 ∉ units)
    (hstands : StandsIn source index (units ++ [0])) (hrounds : limit ≤ stored.length + rounds) :
    Adds locale limit units stored
      (wcstombsLoop locale source limit rounds index stored).stored := by
  induction units generalizing index stored rounds with
  | nil =>
    by_cases hfull : limit ≤ stored.length
    · exact adds_of_full [] hfull
    · obtain ⟨more, rfl⟩ : ∃ more, rounds = more + 1 := Nat.exists_eq_succ_of_ne_zero (by omega)
      exact adds_of_zero (not_le.mp hfull) (standsIn_cons.mp hstands).1
  | cons unit rest ih =>
    by_cases hfull : limit ≤ stored.length
    · exact adds_of_full (unit :: rest) hfull
    · obtain ⟨more, rfl⟩ : ∃ more, rounds = more + 1 := Nat.exists_eq_succ_of_ne_zero (by omega)
      rw [List.mem_cons, not_or] at hunits
      obtain ⟨hunit, hrest⟩ := hunits
      obtain ⟨hfirst, hstandsRest⟩ := standsIn_cons.mp hstands
      subst hfirst
      by_cases hblocked : ∀ bytes, locale.convert (source index) = some bytes →
          limit < stored.length + bytes.length
      · rw [stored_of_blocked (not_le.mp hfull) (Ne.symm hunit) hblocked]
        apply adds_nothing
        apply isGreatest_fits_zero
        intro bytes hbytes
        have hlong := hblocked bytes hbytes
        omega
      · push Not at hblocked
        obtain ⟨bytes, hconvert, hfits⟩ := hblocked
        rw [wcstombsLoop_of_fits (Ne.symm hunit) hconvert hfits]
        have hbytes : 0 < bytes.length :=
          List.length_pos_iff.mpr (locale.convert_ne_nil _ _ hconvert)
        apply Adds.cons hconvert hfits
        apply ih more hrest hstandsRest
        rw [List.length_append]
        omega

/-! ## Terminated strings in a buffer -/

/-- A buffer of zeros with what `wcstombs` has stored in it. -/
def filled (size limit : ℕ) (locale : Locale Wide Byte) (source : ℕ → Wide) : List Byte :=
  (wcstombs locale source limit).stored ++
    List.replicate (size - (wcstombs locale source limit).stored.length) 0

variable {size : ℕ}

theorem length_stored_wcstombsLoop (hroom : stored.length ≤ limit) :
    (wcstombsLoop locale source limit rounds index stored).stored.length ≤ limit := by
  induction rounds generalizing index stored with
  | zero => exact hroom
  | succ rounds ih =>
    rw [wcstombsLoop]
    split_ifs with hfull hzero
    · exact hroom
    · rw [List.length_append]
      exact not_le.mp hfull
    · cases locale.convert (source index) with
      | none => exact hroom
      | some bytes =>
        dsimp only
        split_ifs with hfits
        · apply ih
          rwa [List.length_append]
        · exact hroom

/-- The limit keeps the conversion inside the buffer. -/
theorem length_filled (hlimit : limit ≤ size) :
    (filled size limit locale source).length = size := by
  have hstored : (wcstombs locale source limit).stored.length ≤ limit :=
    length_stored_wcstombsLoop (Nat.zero_le limit)
  rw [filled, List.length_append, List.length_replicate]
  omega

/-- The longest run that fits stands in the buffer, and it is terminated there unless it fills the
buffer. -/
theorem cString_filled [DecidableEq Byte] (hunits : 0 ∉ units)
    (hstands : StandsIn source 0 (units ++ [0])) (hlimit : limit ≤ size) :
    ∃ count bytes, IsGreatest {count | Fits locale limit units count} count ∧
      converted locale (units.take count) = some bytes ∧ bytes.length ≤ limit ∧
      cString (filled size limit locale source) =
        if bytes.length = size then none else some bytes := by
  have hadds : Adds locale limit units [] (wcstombs locale source limit).stored :=
    wcstombsLoop_adds limit hunits hstands (Nat.le_add_left limit 0)
  obtain ⟨count, bytes, hgreatest, hbytes, hstored⟩ := hadds
  rw [List.length_nil, Nat.sub_zero] at hgreatest
  rw [List.nil_append] at hstored
  have hfits : bytes.length ≤ limit := by
    obtain ⟨-, fitting, hfitting, hle⟩ := hgreatest.1
    rw [hbytes] at hfitting
    cases hfitting
    exact hle
  have hnonzero : 0 ∉ bytes :=
    zero_not_mem_converted (fun hzero ↦ hunits (List.mem_of_mem_take hzero)) hbytes
  refine ⟨count, bytes, hgreatest, hbytes, hfits, ?_⟩
  rcases hstored with hstored | ⟨hstored, hroom⟩
  · by_cases hfull : bytes.length = size
    · have hbuffer : filled size limit locale source = bytes := by
        rw [filled, hstored, hfull, Nat.sub_self, List.replicate_zero, List.append_nil]
      rw [if_pos hfull, hbuffer, cString, if_neg hnonzero]
    · rw [if_neg hfull, filled, hstored]
      exact cString_append_zeros hnonzero (by omega)
  · have hsize : bytes.length ≠ size := by omega
    rw [if_neg hsize, filled, hstored, List.append_assoc, List.singleton_append,
      ← List.replicate_succ]
    exact cString_append_zeros hnonzero (Nat.succ_pos _)

end WinProcessThread.Text
