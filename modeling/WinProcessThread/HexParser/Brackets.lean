import WinProcessThread.HexParser.Search

/-!
# The text between the brackets

`main` cuts the pattern of a search out of the joined arguments with two positions that it narrows
to `unsigned` and then adds and subtracts modulo `2 ^ 32`.  A bracket that is missing becomes the
largest `unsigned`, and both arguments of `substr` wrap around.
-/

namespace WinProcessThread.HexParser

open Text

/-- `std::string::substr`; `none` is the exception `std::out_of_range`. -/
def substr (string : List Char) (pos count : ℕ) : Option (List Char) :=
  if pos ≤ string.length then some ((string.drop pos).take count) else none

/-- A position, or `npos`, narrowed to `unsigned`. -/
def toUnsigned : Option ℕ → UInt32
  | some pos => UInt32.ofNat pos
  | none => 0xFFFFFFFF

/-- `find1.substr(first+1, last-first-1)`. -/
def bracketed (find1 : List Char) : Option (List Char) :=
  let first := toUnsigned (find find1 "[".toList 0)
  let last := toUnsigned (find find1 "]".toList 0)
  substr find1 (first + 1).toNat (last - first - 1).toNat

variable {bracket : Char} {front rest text : List Char}

theorem occursAt_singleton_iff {position : ℕ} :
    OccursAt [bracket] text position ↔ text[position]? = some bracket := by
  rw [OccursAt, List.cons_prefix_iff]
  constructor
  · rintro ⟨-, rest, hrest, -⟩
    rw [← List.head?_drop, hrest]
    rfl
  · intro hget
    obtain ⟨hlt, hchar⟩ := List.getElem?_eq_some_iff.mp hget
    refine ⟨hlt.le, text.drop (position + 1), ?_, List.nil_prefix⟩
    rw [List.drop_eq_getElem_cons hlt, hchar]

theorem find_eq_none_of_not_mem (hmissing : bracket ∉ text) : find text [bracket] 0 = none := by
  apply find_eq_none_iff.mpr
  intro start _ hoccurs
  exact hmissing (List.mem_of_getElem? (occursAt_singleton_iff.mp hoccurs))

theorem find_eq_length_of_not_mem (hfront : bracket ∉ front) :
    find (front ++ bracket :: rest) [bracket] 0 = some front.length := by
  apply find_eq_some_iff.mpr
  constructor
  · refine ⟨Nat.zero_le _, occursAt_singleton_iff.mpr ?_⟩
    rw [List.getElem?_append_right le_rfl, Nat.sub_self]
    rfl
  · rintro start ⟨-, hoccurs⟩
    by_contra hlt
    rw [occursAt_singleton_iff, List.getElem?_append_left (not_le.mp hlt)] at hoccurs
    exact hfront (List.mem_of_getElem? hoccurs)

theorem toNat_toUnsigned_some {pos : ℕ} (hpos : pos < 2 ^ 32) :
    (toUnsigned (some pos)).toNat = pos :=
  UInt32.toNat_ofNat_of_lt' hpos

theorem toNat_toUnsigned_none : (toUnsigned none).toNat = 2 ^ 32 - 1 := rfl

/-- The extraction with the wrapping written out. -/
theorem bracketed_eq (find1 : List Char) :
    bracketed find1 =
      substr find1 (((toUnsigned (find find1 "[".toList 0)).toNat + 1) % 2 ^ 32)
        (((toUnsigned (find find1 "]".toList 0)).toNat + 2 ^ 33 -
          (toUnsigned (find find1 "[".toList 0)).toNat - 1) % 2 ^ 32) := by
  unfold bracketed
  dsimp only
  generalize toUnsigned (find find1 "[".toList 0) = first
  generalize toUnsigned (find find1 "]".toList 0) = last
  have hfirst : first.toNat < 2 ^ 32 := first.toNat_lt
  have hlast : last.toNat < 2 ^ 32 := last.toNat_lt
  have hpos : (first + 1).toNat = (first.toNat + 1) % 2 ^ 32 := UInt32.toNat_add first 1
  have hcount : (last - first - 1).toNat = (last.toNat + 2 ^ 33 - first.toNat - 1) % 2 ^ 32 := by
    have hone : (1 : UInt32).toNat = 1 := rfl
    rw [UInt32.toNat_sub, UInt32.toNat_sub, hone]
    omega
  rw [hpos, hcount]

/-- The text that the brackets of a text stand for: the one between the first brackets, if they come
in this order; what is behind an opening bracket that no closing one comes behind first; what is in
front of a closing bracket without an opening one; or all of it. -/
inductive BracketText : List Char → List Char → Prop
  | between (front inner back : List Char) (hopen : '[' ∉ front) (hclose : ']' ∉ front)
      (hinner : ']' ∉ inner) : BracketText (front ++ '[' :: (inner ++ ']' :: back)) inner
  | behind (front rest : List Char) (hopen : '[' ∉ front) (hclose : ']' ∈ front ∨ ']' ∉ rest) :
      BracketText (front ++ '[' :: rest) rest
  | before (front rest : List Char) (hopen : '[' ∉ front ++ ']' :: rest) (hclose : ']' ∉ front) :
      BracketText (front ++ ']' :: rest) front
  | whole (text : List Char) (hopen : '[' ∉ text) (hclose : ']' ∉ text) : BracketText text text

theorem exists_bracketText (text : List Char) : ∃ inner, BracketText text inner := by
  by_cases hopen : '[' ∈ text
  · obtain ⟨front, rest, rfl, hfront⟩ := List.eq_append_cons_of_mem hopen
    by_cases hclose : ']' ∈ front ∨ ']' ∉ rest
    · exact ⟨rest, .behind front rest hfront hclose⟩
    · push Not at hclose
      obtain ⟨inner, back, rfl, hinner⟩ := List.eq_append_cons_of_mem hclose.2
      exact ⟨inner, .between front inner back hfront hclose.1 hinner⟩
  · by_cases hclose : ']' ∈ text
    · obtain ⟨front, rest, rfl, hfront⟩ := List.eq_append_cons_of_mem hclose
      exact ⟨front, .before front rest hopen hfront⟩
    · exact ⟨text, .whole text hopen hclose⟩

/-- Between brackets in their order the text is cut modulo `2 ^ 32` only. -/
theorem bracketed_between {front inner : List Char} (back : List Char) (hopen : '[' ∉ front)
    (hclose : ']' ∉ front) (hinner : ']' ∉ inner) (hshort : front.length + 1 < 2 ^ 32) :
    bracketed (front ++ '[' :: (inner ++ ']' :: back)) =
      some (inner.take (inner.length % 2 ^ 32)) := by
  have hfirst : find (front ++ '[' :: (inner ++ ']' :: back)) "[".toList 0 = some front.length :=
    find_eq_length_of_not_mem hopen
  have hlast : find (front ++ '[' :: (inner ++ ']' :: back)) "]".toList 0 =
      some (front ++ '[' :: inner).length := by
    have hsplit : front ++ '[' :: (inner ++ ']' :: back) =
        (front ++ '[' :: inner) ++ ']' :: back := by
      simp
    rw [hsplit]
    apply find_eq_length_of_not_mem
    simp [hclose, hinner]
  have hnarrow : (toUnsigned (some (front ++ '[' :: inner).length)).toNat =
      (front.length + 1 + inner.length) % 2 ^ 32 := by
    rw [List.length_append, List.length_cons, Nat.add_right_comm, ← Nat.add_assoc]
    exact UInt32.toNat_ofNat'
  have hpos : (front.length + 1) % 2 ^ 32 = (front ++ ['[']).length := by
    rw [List.length_append, List.length_singleton, Nat.mod_eq_of_lt hshort]
  have hcount : ((front.length + 1 + inner.length) % 2 ^ 32 + 2 ^ 33 - front.length - 1) % 2 ^ 32 =
      inner.length % 2 ^ 32 := by omega
  have hsplit : front ++ '[' :: (inner ++ ']' :: back) =
      (front ++ ['[']) ++ (inner ++ ']' :: back) := by
    simp
  have hinside : (front ++ ['[']).length ≤ ((front ++ ['[']) ++ (inner ++ ']' :: back)).length := by
    simp
  calc
    bracketed (front ++ '[' :: (inner ++ ']' :: back)) =
        substr (front ++ '[' :: (inner ++ ']' :: back)) ((front.length + 1) % 2 ^ 32)
          (((front.length + 1 + inner.length) % 2 ^ 32 + 2 ^ 33 - front.length - 1) % 2 ^ 32) := by
      rw [bracketed_eq, hfirst, hlast, hnarrow, toNat_toUnsigned_some (by omega)]
    _ = substr ((front ++ ['[']) ++ (inner ++ ']' :: back)) (front ++ ['[']).length
          (inner.length % 2 ^ 32) := by
      rw [hpos, hcount, hsplit]
    _ = some ((inner ++ ']' :: back).take (inner.length % 2 ^ 32)) := by
      rw [substr, if_pos hinside, List.drop_left]
    _ = some (inner.take (inner.length % 2 ^ 32)) := by
      rw [List.take_append_of_le_length (Nat.mod_le _ _)]

theorem substr_drop {string : List Char} {pos count : ℕ} (hpos : pos ≤ string.length)
    (hcount : string.length ≤ pos + count) : substr string pos count = some (string.drop pos) := by
  rw [substr, if_pos hpos]
  apply congrArg some
  apply List.take_of_length_le
  rw [List.length_drop]
  exact Nat.sub_le_iff_le_add'.mpr hcount

/-- The closing bracket that does not come behind the opening one is found in front of it, or is the
largest `unsigned`. -/
theorem toNat_closing (hshort : (front ++ '[' :: rest).length < 2 ^ 32)
    (hclose : ']' ∈ front ∨ ']' ∉ rest) :
    (toUnsigned (find (front ++ '[' :: rest) "]".toList 0)).toNat < front.length ∨
      (toUnsigned (find (front ++ '[' :: rest) "]".toList 0)).toNat = 2 ^ 32 - 1 := by
  rw [List.length_append, List.length_cons] at hshort
  by_cases hmem : ']' ∈ front
  · left
    obtain ⟨before, after, rfl, hbefore⟩ := List.eq_append_cons_of_mem hmem
    have hfind : find (before ++ ']' :: after ++ '[' :: rest) "]".toList 0 =
        some before.length := by
      rw [List.append_assoc]
      exact find_eq_length_of_not_mem hbefore
    rw [List.length_append, List.length_cons] at hshort ⊢
    rw [hfind, toNat_toUnsigned_some (by omega)]
    exact Nat.lt_add_of_pos_right (Nat.succ_pos _)
  · right
    have hmissing : ']' ∉ front ++ '[' :: rest := by
      simpa [hmem] using hclose
    have hfind : find (front ++ '[' :: rest) "]".toList 0 = none :=
      find_eq_none_of_not_mem hmissing
    rw [hfind]
    exact toNat_toUnsigned_none

theorem bracketed_behind (hshort : (front ++ '[' :: rest).length < 2 ^ 32) (hopen : '[' ∉ front)
    (hclose : ']' ∈ front ∨ ']' ∉ rest) : bracketed (front ++ '[' :: rest) = some rest := by
  have hlast := toNat_closing hshort hclose
  have hlength : (front ++ '[' :: rest).length = front.length + 1 + rest.length := by
    rw [List.length_append, List.length_cons]
    omega
  have hfirst : find (front ++ '[' :: rest) "[".toList 0 = some front.length :=
    find_eq_length_of_not_mem hopen
  have hpos : (front.length + 1) % 2 ^ 32 = front.length + 1 := Nat.mod_eq_of_lt (by omega)
  calc
    bracketed (front ++ '[' :: rest) = some ((front ++ '[' :: rest).drop (front.length + 1)) := by
      rw [bracketed_eq, hfirst, toNat_toUnsigned_some (by omega), hpos,
        substr_drop (by omega) (by omega)]
    _ = some rest := by
      rw [← List.drop_drop, List.drop_left, List.drop_one, List.tail_cons]

theorem bracketed_before (hshort : (front ++ ']' :: rest).length < 2 ^ 32)
    (hopen : '[' ∉ front ++ ']' :: rest) (hclose : ']' ∉ front) :
    bracketed (front ++ ']' :: rest) = some front := by
  have hfirst : find (front ++ ']' :: rest) "[".toList 0 = none := find_eq_none_of_not_mem hopen
  have hlast : find (front ++ ']' :: rest) "]".toList 0 = some front.length :=
    find_eq_length_of_not_mem hclose
  have hfront : front.length < 2 ^ 32 := by
    rw [List.length_append] at hshort
    omega
  have hcount : (front.length + 2 ^ 33 - (2 ^ 32 - 1) - 1) % 2 ^ 32 = front.length := by omega
  calc
    bracketed (front ++ ']' :: rest) = substr (front ++ ']' :: rest) 0 front.length := by
      rw [bracketed_eq, hfirst, hlast, toNat_toUnsigned_some hfront, toNat_toUnsigned_none, hcount]
      rfl
    _ = some ((front ++ ']' :: rest).take front.length) := if_pos (Nat.zero_le _)
    _ = some front := congrArg some List.take_left

theorem bracketed_whole (hshort : text.length < 2 ^ 32) (hopen : '[' ∉ text) (hclose : ']' ∉ text) :
    bracketed text = some text := by
  have hfirst : find text "[".toList 0 = none := find_eq_none_of_not_mem hopen
  have hlast : find text "]".toList 0 = none := find_eq_none_of_not_mem hclose
  rw [bracketed_eq, hfirst, hlast, toNat_toUnsigned_none]
  apply substr_drop <;> omega

/-- The extraction never throws, however long the text is. -/
theorem exists_bracketed (find1 : List Char) : ∃ text, bracketed find1 = some text := by
  rw [bracketed_eq, substr, if_pos]
  · exact ⟨_, rfl⟩
  · cases hfirst : find find1 "[".toList 0 with
    | none =>
      rw [toNat_toUnsigned_none]
      exact Nat.zero_le _
    | some first =>
      obtain ⟨⟨-, hoccurs⟩, -⟩ := find_eq_some_iff.mp hfirst
      have hinside : first + "[".toList.length ≤ find1.length := (occursAt_iff_take.mp hoccurs).1
      calc
        ((toUnsigned (some first)).toNat + 1) % 2 ^ 32 ≤ (toUnsigned (some first)).toNat + 1 :=
          Nat.mod_le _ _
        _ = first % 2 ^ 32 + 1 := congrArg (· + 1) UInt32.toNat_ofNat'
        _ ≤ first + 1 := Nat.add_le_add_right (Nat.mod_le _ _) 1
        _ ≤ find1.length := hinside

theorem bracketed_of_bracketText {find1 : List Char} (hshort : find1.length < 2 ^ 32)
    (htext : BracketText find1 text) : bracketed find1 = some text := by
  cases htext with
  | between front inner back hopen hclose hinner =>
    have hlength : (front ++ '[' :: (text ++ ']' :: back)).length =
        front.length + 1 + text.length + (back.length + 1) := by
      simp only [List.length_append, List.length_cons]
      omega
    rw [bracketed_between back hopen hclose hinner (by omega), Nat.mod_eq_of_lt (by omega),
      List.take_length]
  | behind front rest hopen hclose => exact bracketed_behind hshort hopen hclose
  | before front rest hopen hclose => exact bracketed_before hshort hopen hclose
  | whole text hopen hclose => exact bracketed_whole hshort hopen hclose

/-- `find1` after the loop over the arguments: each of them is followed by one space. -/
def joined (arguments : List (List Char)) : List Char :=
  arguments.flatMap fun argument ↦ argument ++ [' ']

/-- The extraction never throws and gives the text that the brackets stand for, which is one text
only. -/
theorem bracketed_joined (arguments : List (List Char))
    (hshort : (joined arguments).length < 2 ^ 32) :
    ∃ text, bracketed (joined arguments) = some text ∧
      ∀ other, BracketText (joined arguments) other ↔ other = text := by
  obtain ⟨text, htext⟩ := exists_bracketText (joined arguments)
  have hbracketed : bracketed (joined arguments) = some text :=
    bracketed_of_bracketText hshort htext
  refine ⟨text, hbracketed, fun other ↦ ?_⟩
  constructor
  · intro hother
    have hsome : some other = some text :=
      (bracketed_of_bracketText hshort hother).symm.trans hbracketed
    exact Option.some.inj hsome
  · rintro rfl
    exact htext

/-- Two arguments with the brackets in their order. -/
theorem bracketed_joined_witness :
    ∃ text, bracketed (joined ["[aa".toList, "bb]".toList]) = some text ∧
      ∀ other, BracketText (joined ["[aa".toList, "bb]".toList]) other ↔ other = text :=
  bracketed_joined ["[aa".toList, "bb]".toList] (by decide)

end WinProcessThread.HexParser
