import Mathlib.Data.Nat.Digits.Defs
import Mathlib.Data.UInt
import WinProcessThread.Text.Json

/-!
# The record of a process

`Processid_CommandLine_PEB_PBI` puts the id, the name and the command line of a process between
quotes as they are.  The text of the 64-bit build opens a second brace where a name should stand.

The name is what `(char*) pe32.szExeFile` points to.  `TCHAR` is taken to be `char`, so that this is
the image name.
-/

namespace WinProcessThread.Process

open Text
open Text.Json

inductive Build
  | win32
  | win64
deriving DecidableEq, Repr

/-- `spuac`. -/
def spuac (elevated : Bool) : List Char :=
  if elevated then "TRUE".toList else "FALSE".toList

/-- `std::to_string(PID)`. -/
def spid (pid : Int32) : List Char :=
  (toString pid.toInt).toList

/-- `spnamex`, the record that is printed. -/
def spnamex (build : Build) (elevated : Bool) (pid : Int32) (name commandLine : List Char) :
    List Char :=
  match build with
  | .win64 =>
    "\x7b \"Process_UAC\" : \"".toList ++ spuac elevated ++ "\",".toList ++
      "\x7b\"Process_ID\" : \"".toList ++ spid pid ++ "\", \"Process_name\" : \"".toList ++ name ++
      "\", \"Command_line\" : \"".toList ++ commandLine ++ "\"\x7d\n".toList
  | .win32 =>
    "\x7b\"Process_ID\" : \"".toList ++ spid pid ++ "\", \"Process_name\" : \"".toList ++ name ++
      "\", \"Command_line\" : \"".toList ++ commandLine ++ "\"\x7d".toList

/-- The members of this name are strings of this text. -/
def Decodes (members : List (List Char × Json)) (name : String) (text : List Char) : Prop :=
  (∃ member ∈ members, member.1 = name.toList) ∧
    ∀ member ∈ members, member.1 = name.toList → member.2 = .string text

/-- The record is one object, and it says which process it is about. -/
def Faithful (build : Build) (elevated : Bool) (pid : Int32) (name commandLine : List Char) :
    Prop :=
  ∃ members, Denotes (spnamex build elevated pid name commandLine) (.object members) ∧
    Decodes members "Process_ID" (spid pid) ∧ Decodes members "Process_name" name ∧
    Decodes members "Command_line" commandLine

theorem unescaped_spid (pid : Int32) : Unescaped (spid pid) := by
  have hdigit : ∀ char : Char, char.isDigit → IsUnescaped char := by
    intro char hchar
    have hrange : 48 ≤ char.toNat ∧ char.toNat ≤ 57 := by
      simpa [Char.isDigit, Char.le_def, UInt32.le_iff_toNat_le] using hchar
    refine ⟨?_, ?_, le_trans (by decide) hrange.1⟩
    · rintro rfl
      exact absurd hrange (by decide)
    · rintro rfl
      exact absurd hrange (by decide)
  have hdigits : ∀ number : ℕ, Unescaped (Nat.toDigits 10 number) := by
    intro number char hchar
    exact hdigit char (Nat.isDigit_of_mem_toDigits (by decide) (by decide) hchar)
  have hminus : IsUnescaped '-' := by decide
  rw [spid]
  cases pid.toInt with
  | ofNat number => simpa [toString, Int.repr, Nat.repr] using hdigits number
  | negSucc number =>
    have hnumber := hdigits (number + 1)
    intro char hchar
    rcases (by simpa [toString, Int.repr, Nat.repr] using hchar :
      char = '-' ∨ char ∈ Nat.toDigits 10 (number + 1)) with rfl | hmember
    · exact hminus
    · exact hnumber char hmember

variable {elevated : Bool} {pid : Int32} {name commandLine : List Char}
variable {members : List (List Char × Json)} {rest : List Char}

/-- The record behind the quote that closes the name. -/
def behindName (commandLine : List Char) : List Char :=
  ", \"".toList ++ ("Command_line".toList ++ "\" : \"".toList ++
    (commandLine ++ '"' :: "\x7d".toList))

/-- The record behind the quote that closes the process id. -/
def behindId (name commandLine : List Char) : List Char :=
  ", \"".toList ++ ("Process_name".toList ++ "\" : \"".toList ++
    (name ++ '"' :: behindName commandLine))

theorem spnamex_win32 :
    spnamex .win32 elevated pid name commandLine =
      '{' :: '"' :: ("Process_ID".toList ++ "\" : \"".toList ++
        (spid pid ++ '"' :: behindId name commandLine)) := by
  have hfirst : "\x7b\"Process_ID\" : \"".toList =
      '{' :: '"' :: ("Process_ID".toList ++ "\" : \"".toList) := by decide
  have hsecond : "\", \"Process_name\" : \"".toList =
      '"' :: (", \"".toList ++ ("Process_name".toList ++ "\" : \"".toList)) := by decide
  have hthird : "\", \"Command_line\" : \"".toList =
      '"' :: (", \"".toList ++ ("Command_line".toList ++ "\" : \"".toList)) := by decide
  have hlast : "\"\x7d".toList = '"' :: "\x7d".toList := by decide
  unfold spnamex behindId behindName
  dsimp only
  simp only [hfirst, hsecond, hthird, hlast, List.append_assoc, List.cons_append]

theorem skipSpace_space_quote (text : List Char) :
    skipSpace (' ' :: '"' :: text) = '"' :: text := by
  rw [skipSpace_space, skipSpace_of_not_space (by decide)]

theorem Decodes.value {key : String} {text : List Char} {value : Json}
    (hdecodes : Decodes members key text) (hmember : (key.toList, value) ∈ members) :
    value = .string text :=
  hdecodes.2 _ hmember rfl

/-- The content of a member that decodes to it needs no escapes, or its quote does not close it. -/
theorem Decodes.content_cases {key : String} {content behind decoded after : List Char}
    (hdecodes : Decodes ((key.toList, .string decoded) :: members) key content)
    (hbody : StringBody (content ++ '"' :: behind) decoded after) :
    (decoded = content ∧ after = behind ∧ Unescaped content) ∨
      ∃ more, StringBody behind more after := by
  have hdecoded : decoded = content := Json.string.inj (hdecodes.value List.mem_cons_self)
  rw [hdecoded] at hbody ⊢
  exact hbody.append_cases.resolve_left (lt_irrefl _)

/-- A command line that its quotes enclose as it is. -/
theorem commandLine_members_iff :
    (Members (' ' :: '"' :: ("Command_line".toList ++ "\" : \"".toList ++
        (commandLine ++ '"' :: "\x7d".toList))) members rest ∧
      Decodes members "Command_line" commandLine) ↔
      Unescaped commandLine ∧ rest = [] ∧
        members = [("Command_line".toList, .string commandLine)] := by
  have hname : Unescaped "Command_line".toList := by decide
  rw [members_string_iff hname (skipSpace_space_quote _)]
  constructor
  · rintro ⟨⟨decoded, behind, more, hbody, rfl, hbehind⟩, hdecodes⟩
    rcases hdecodes.content_cases hbody with ⟨rfl, rfl, hunescaped⟩ | ⟨absorbed, habsorbed⟩
    · rcases hbehind with ⟨hclose, rfl⟩ | ⟨next, hcomma, -⟩
      · cases hclose
        exact ⟨hunescaped, rfl, rfl⟩
      · cases hcomma
    · -- Behind the last quote there is none left to close a string.
      cases habsorbed with
      | unescaped _ hnone => cases hnone
  · rintro ⟨hunescaped, rfl, rfl⟩
    constructor
    · exact ⟨commandLine, _, [], (stringBody_unescaped_iff hunescaped).mpr ⟨rfl, rfl⟩, rfl,
        .inl ⟨rfl, rfl⟩⟩
    · simp [Decodes]

theorem decodes_cons_iff {key other : String} {text : List Char} {value : Json}
    (hother : other.toList ≠ key.toList) :
    Decodes ((other.toList, value) :: members) key text ↔ Decodes members key text := by
  simp [Decodes, hother]

theorem skipSpace_behindName :
    skipSpace (behindName commandLine) = ',' :: ' ' :: '"' :: ("Command_line".toList ++
      "\" : \"".toList ++ (commandLine ++ '"' :: "\x7d".toList)) := by
  rw [List.append_assoc]
  exact skipSpace_of_not_space (by decide) _

theorem skipSpace_behindId :
    skipSpace (behindId name commandLine) = ',' :: ' ' :: '"' :: ("Process_name".toList ++
      "\" : \"".toList ++ (name ++ '"' :: behindName commandLine)) := by
  rw [List.append_assoc]
  exact skipSpace_of_not_space (by decide) _

/-- A name that ends in a backslash takes the quote behind it in, and the next one closes it in
front of the letters of the next name. -/
theorem not_members_of_absorbed {behind more : List Char} (rest : List Char)
    (hbody : StringBody (behindName commandLine) more behind) :
    skipSpace behind ≠ '}' :: rest ∧ ∀ next, skipSpace behind ≠ ',' :: next := by
  have hquote : behindName commandLine = ", ".toList ++ '"' :: ("Command_line".toList ++
      "\" : \"".toList ++ (commandLine ++ '"' :: "\x7d".toList)) := by
    rw [List.append_assoc]
    rfl
  rw [hquote, stringBody_unescaped_iff (by decide)] at hbody
  obtain ⟨-, rfl⟩ := hbody
  have hletter : skipSpace ("Command_line".toList ++ "\" : \"".toList ++
      (commandLine ++ '"' :: "\x7d".toList)) =
        'C' :: ("ommand_line".toList ++ "\" : \"".toList ++
          (commandLine ++ '"' :: "\x7d".toList)) := skipSpace_of_not_space (by decide) _
  rw [hletter]
  exact ⟨by simp, by simp⟩

theorem name_members_iff :
    (Members (' ' :: '"' :: ("Process_name".toList ++ "\" : \"".toList ++
        (name ++ '"' :: behindName commandLine))) members rest ∧
      Decodes members "Process_name" name ∧ Decodes members "Command_line" commandLine) ↔
      Unescaped name ∧ Unescaped commandLine ∧ rest = [] ∧
        members = [("Process_name".toList, .string name),
          ("Command_line".toList, .string commandLine)] := by
  have hname : Unescaped "Process_name".toList := by decide
  have hother : "Process_name".toList ≠ "Command_line".toList := by decide
  rw [members_string_iff hname (skipSpace_space_quote _)]
  constructor
  · rintro ⟨⟨decoded, behind, more, hbody, rfl, hbehind⟩, hdecodesName, hdecodesLine⟩
    rcases hdecodesName.content_cases hbody with ⟨rfl, rfl, hunescaped⟩ | ⟨absorbed, habsorbed⟩
    · rw [skipSpace_behindName] at hbehind
      rcases hbehind with ⟨hclose, -⟩ | ⟨next, hcomma, hmore⟩
      · cases hclose
      · cases hcomma
        rw [decodes_cons_iff hother] at hdecodesLine
        obtain ⟨hline, rfl, rfl⟩ := commandLine_members_iff.mp ⟨hmore, hdecodesLine⟩
        exact ⟨hunescaped, hline, rfl, rfl⟩
    · obtain ⟨hclose, hcomma⟩ := not_members_of_absorbed rest habsorbed
      rcases hbehind with ⟨hbrace, -⟩ | ⟨next, hnext, -⟩
      · exact absurd hbrace hclose
      · exact absurd hnext (hcomma next)
  · rintro ⟨hunescaped, hline, rfl, rfl⟩
    obtain ⟨hmembers, hdecodes⟩ := commandLine_members_iff.mpr ⟨hline, rfl, rfl⟩
    refine ⟨⟨name, _, _, (stringBody_unescaped_iff hunescaped).mpr ⟨rfl, rfl⟩, rfl,
      .inr ⟨_, skipSpace_behindName, hmembers⟩⟩, ?_, (decodes_cons_iff hother).mpr hdecodes⟩
    simp [Decodes]

theorem faithful_win32_iff :
    Faithful .win32 elevated pid name commandLine ↔ Unescaped name ∧ Unescaped commandLine := by
  have hid : Unescaped "Process_ID".toList := by decide
  have hname : "Process_ID".toList ≠ "Process_name".toList := by decide
  have hline : "Process_ID".toList ≠ "Command_line".toList := by decide
  have hquote : ∀ text, skipSpace ('"' :: text) = '"' :: text :=
    fun text ↦ skipSpace_of_not_space (by decide) text
  rw [Faithful, spnamex_win32]
  constructor
  · rintro ⟨members, hdenotes, -, hdecodesName, hdecodesLine⟩
    obtain ⟨rest, hmembers, -⟩ := (denotes_object_iff (hquote _)).mp hdenotes
    rw [← List.append_assoc] at hmembers
    obtain ⟨decoded, behind, more, hbody, rfl, hbehind⟩ :=
      (members_string_iff hid (hquote _)).mp hmembers
    obtain ⟨rfl, rfl⟩ := (stringBody_unescaped_iff (unescaped_spid pid)).mp hbody
    rw [skipSpace_behindId] at hbehind
    rcases hbehind with ⟨hclose, -⟩ | ⟨next, hcomma, hmore⟩
    · cases hclose
    · cases hcomma
      rw [decodes_cons_iff hname] at hdecodesName
      rw [decodes_cons_iff hline] at hdecodesLine
      obtain ⟨hunescaped, hcommand, -, -⟩ :=
        name_members_iff.mp ⟨hmore, hdecodesName, hdecodesLine⟩
      exact ⟨hunescaped, hcommand⟩
  · rintro ⟨hunescaped, hcommand⟩
    obtain ⟨hmembers, hdecodesName, hdecodesLine⟩ :=
      name_members_iff.mpr ⟨hunescaped, hcommand, rfl, rfl⟩
    refine ⟨("Process_ID".toList, .string (spid pid)) :: _, ?_, ?_,
      (decodes_cons_iff hname).mpr hdecodesName, (decodes_cons_iff hline).mpr hdecodesLine⟩
    · apply (denotes_object_iff (hquote _)).mpr
      refine ⟨[], ?_, rfl⟩
      rw [← List.append_assoc]
      apply (members_string_iff hid (hquote _)).mpr
      exact ⟨spid pid, _, _, (stringBody_unescaped_iff (unescaped_spid pid)).mpr ⟨rfl, rfl⟩, rfl,
        .inr ⟨_, skipSpace_behindId, hmembers⟩⟩
    · simp [Decodes]

theorem not_members_of_brace {text : List Char} : ¬ Members ('{' :: text) members rest := by
  have hbrace : skipSpace ('{' :: text) = '{' :: text := skipSpace_of_not_space (by decide) text
  have hmember : ∀ member behind, ¬ Member ('{' :: text) member behind := by
    intro member behind hmember
    cases hmember with
    | member hquote =>
      rw [hbrace] at hquote
      cases hquote
  intro hmembers
  cases hmembers with
  | last hlast => exact hmember _ _ hlast
  | more hfirst => exact hmember _ _ hfirst

theorem spnamex_win64 (elevated : Bool) (pid : Int32) (name commandLine : List Char) :
    ∃ text, spnamex .win64 elevated pid name commandLine =
      '{' :: ' ' :: '"' :: ("Process_UAC".toList ++ "\" : \"".toList ++
        (spuac elevated ++ '"' :: ',' :: '{' :: text)) := by
  have hfirst : "\x7b \"Process_UAC\" : \"".toList =
      '{' :: ' ' :: '"' :: ("Process_UAC".toList ++ "\" : \"".toList) := by decide
  have hsecond : "\",".toList = '"' :: ",".toList := by decide
  have hcomma : ",".toList = [','] := by decide
  have hthird : "\x7b\"Process_ID\" : \"".toList = '{' :: "\"Process_ID\" : \"".toList := by decide
  unfold spnamex
  dsimp only
  simp only [hfirst, hsecond, hcomma, hthird, List.append_assoc, List.cons_append, List.nil_append]
  exact ⟨_, rfl⟩

/-- The record is no object, whatever the process is. -/
theorem not_faithful_win64 : ¬ Faithful .win64 elevated pid name commandLine := by
  have hkey : Unescaped "Process_UAC".toList := by decide
  have huac : Unescaped (spuac elevated) := by
    cases elevated <;> decide
  have hcomma : ∀ text, skipSpace (',' :: text) = ',' :: text :=
    fun text ↦ skipSpace_of_not_space (by decide) text
  obtain ⟨text, htext⟩ := spnamex_win64 elevated pid name commandLine
  rintro ⟨members, hdenotes, -⟩
  rw [htext] at hdenotes
  obtain ⟨rest, hmembers, -⟩ := (denotes_object_iff (skipSpace_space_quote _)).mp hdenotes
  obtain ⟨decoded, behind, more, hbody, -, hbehind⟩ :=
    (members_string_iff hkey (skipSpace_space_quote _)).mp hmembers
  obtain ⟨-, rfl⟩ := (stringBody_unescaped_iff huac).mp hbody
  rw [hcomma] at hbehind
  rcases hbehind with ⟨hclose, -⟩ | ⟨next, hnext, hmore⟩
  · cases hclose
  · cases hnext
    exact not_members_of_brace hmore

/-- A record is a faithful JSON object exactly when it is one of the 32-bit build and its name and
command line need no escapes. -/
theorem faithful_iff (build : Build) (elevated : Bool) (pid : Int32)
    (name commandLine : List Char) :
    Faithful build elevated pid name commandLine ↔
      build = .win32 ∧ Unescaped name ∧ Unescaped commandLine := by
  cases build with
  | win32 =>
    rw [faithful_win32_iff]
    exact (and_iff_right rfl).symm
  | win64 => exact iff_of_false not_faithful_win64 (fun hbuild ↦ nomatch hbuild.1)

/-- The command line `"a"` with its quotes. -/
theorem quoted_not_faithful : ¬ Faithful .win32 true 4 "a.exe".toList "\"a\"".toList := by
  rw [faithful_win32_iff]
  decide

end WinProcessThread.Process
