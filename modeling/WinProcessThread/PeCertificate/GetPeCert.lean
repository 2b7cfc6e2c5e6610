import WinProcessThread.Resource.Handles
import WinProcessThread.Service.Status

/-!
# `get_pe_cert`

The function goes through the certificate entries of an image and through the certificates of each,
and leaves both loops early.  A certificate always has a name of at least the terminator, so the
first code-signing certificate of an entry ends the search; an entry without one ends it as well.
-/

namespace WinProcessThread.PeCertificate

open Resource (Access)
open Service (DWORD)

structure Certificate where
  codeSigning : Bool
  subject : List Char
deriving DecidableEq, Repr

/-- A certificate in a store, with the size of its name that `CertGetNameString` returns and whether
`LocalAlloc` has a block for it. -/
structure CertificateOutcome where
  certificate : Certificate
  nameSize : ℕ
  subjectAllocated : Bool
deriving DecidableEq, Repr

/-- The calls for one entry.  Only a search that succeeds has certificates to look at. -/
structure EntryOutcome where
  /-- The error of the first `ImageGetCertificateData`; `none` is success. -/
  sizeError : Option DWORD
  certAllocated : Bool
  dataRead : Bool
  storeOpened : Bool
  keyUsageAllocated : Bool
  certificates : List CertificateOutcome
deriving DecidableEq, Repr

structure Outcome where
  fileOpened : Bool
  enumerated : Bool
  entries : List EntryOutcome
deriving DecidableEq, Repr

def errorInsufficientBuffer : DWORD := 122

/-- What is to be closed or freed, by the entry that it was obtained for. -/
inductive Acquired
  | file
  | cert (entry : ℕ)
  | store (entry : ℕ)
  | keyUsage (entry : ℕ)
  | subject (entry : ℕ)
deriving DecidableEq, Repr

/-- How the function ends.  `LocalAlloc` may have no block for the name. -/
inductive Answer
  | text (message : String)
  | subject (block : Option Acquired) (name : List Char)
  /-- The usage identifier is written to a null pointer. -/
  | crashed
deriving DecidableEq, Repr

/-- The `do` loop over the certificates with the wanted usage: the first one with a name, or how
many there are. -/
inductive Search
  | named (certificate : CertificateOutcome)
  | exhausted (count : ℕ)
deriving DecidableEq, Repr

/-- `CertFindCertificateInStore` passes over the certificates without the usage. -/
def searchStore (count : ℕ) : List CertificateOutcome → Search
  | [] => .exhausted count
  | certificate :: rest =>
    if certificate.certificate.codeSigning then
      if certificate.nameSize ≠ 0 then .named certificate
      else searchStore (count + 1) rest
    else
      searchStore count rest

/-- A block that `LocalAlloc` may have failed to allocate. -/
def allocated (success : Bool) (access : Access Acquired) : List (Access Acquired) :=
  if success then [access] else []

/-- The end of the function when a certificate has a name. -/
def returnSubject (entry : ℕ) (certificate : CertificateOutcome) :
    List (Access Acquired) × Answer :=
  (allocated certificate.subjectAllocated (.obtain (.subject entry)) ++ [.release .file] ++
      allocated certificate.subjectAllocated (.release (.subject entry)) ++
      [.release (.cert entry), .release (.keyUsage entry)],
    .subject (if certificate.subjectAllocated then some (.subject entry) else none)
      certificate.certificate.subject)

/-- The body of the loop over the entries; without an answer the loop goes on. -/
def certificateData (entry : ℕ) (outcome : EntryOutcome) :
    List (Access Acquired) × Option Answer :=
  if outcome.sizeError = some errorInsufficientBuffer then
    let cert := allocated outcome.certAllocated (.obtain (.cert entry))
    if outcome.certAllocated && outcome.dataRead then
      if outcome.storeOpened then
        let opened := cert ++ [.obtain (.store entry)]
        if outcome.keyUsageAllocated then
          let opened := opened ++ [.obtain (.keyUsage entry)]
          match searchStore 0 outcome.certificates with
          | .named certificate =>
            let (accesses, answer) := returnSubject entry certificate
            (opened ++ accesses, some answer)
          | .exhausted count =>
            if count = 0 then
              (opened, some (.text "No Code Signing certificates found\n"))
            else
              (opened ++ [.release (.keyUsage entry), .release (.store entry),
                .release (.cert entry)], none)
        else
          (opened, some .crashed)
      else
        (cert, some (.text "Error on CertOpenStore.Index"))
    else
      (cert, some (.text "ImageGetCertificateData failed on index "))
  else
    ([], some (.text "Error from ImageGetCertificateData on cert index"))

/-- The loop over the entries from this one on. -/
def entriesLoop (entry : ℕ) : List EntryOutcome → List (Access Acquired) × Option Answer
  | [] => ([], none)
  | outcome :: rest =>
    match certificateData entry outcome with
    | (accesses, some answer) => (accesses, some answer)
    | (accesses, none) =>
      let (more, answer) := entriesLoop (entry + 1) rest
      (accesses ++ more, answer)

/-- `get_pe_cert`. -/
def getPeCert (outcome : Outcome) : List (Access Acquired) × Answer :=
  if outcome.fileOpened then
    if outcome.enumerated then
      if outcome.entries = [] then
        ([.obtain .file], .text "No available certificates!\n")
      else
        match entriesLoop 0 outcome.entries with
        | (accesses, some answer) => (.obtain .file :: accesses, answer)
        | (accesses, none) => (.obtain .file :: accesses ++ [.release .file], .text "NeN")
    else
      ([.obtain .file], .text "ImageEnumerateCertificates failed!\n")
  else
    ([], .text "CreateFile failed!")

/-- The certificate entries of an image, each with its certificates. -/
structure Image where
  entries : List (List Certificate)
  length_le : entries.length ≤ 128

/-- The size of a name counts its terminator. -/
def Certificate.read (certificate : Certificate) : CertificateOutcome where
  certificate := certificate
  nameSize := certificate.subject.length + 1
  subjectAllocated := true

/-- All calls on an image succeed. -/
def Image.read (image : Image) : Outcome where
  fileOpened := true
  enumerated := true
  entries := image.entries.map fun certificates ↦ {
    sizeError := some errorInsufficientBuffer
    certAllocated := true
    dataRead := true
    storeOpened := true
    keyUsageAllocated := true
    certificates := certificates.map Certificate.read }

def Certificate.Named (certificate : Certificate) : Prop :=
  certificate.codeSigning ∧ certificate.subject ≠ []

instance : DecidablePred Certificate.Named :=
  fun _ ↦ inferInstanceAs (Decidable (_ ∧ _))

/-- The first code-signing certificate with a name. -/
def Image.signer (image : Image) : Option Certificate :=
  image.entries.flatten.find? fun certificate ↦ certificate.Named

/-- The name of the signer is selected, and without a code-signing certificate nowhere else the
function says that there is none. -/
structure SelectsSigner (image : Image) : Prop where
  signer : ∀ certificate, image.signer = some certificate →
    ∃ block, (getPeCert image.read).2 = .subject block certificate.subject
  none_found : (getPeCert image.read).2 = .text "No Code Signing certificates found\n" →
    ∀ certificates ∈ image.entries, ∀ certificate ∈ certificates, ¬ certificate.codeSigning

/-- The first entry decides: its first code-signing certificate is the signer, or the image has no
signer and the first entry has a code-signing certificate if any has one. -/
def FirstEntryDecides (image : Image) : Prop :=
  (∃ certificate, (image.entries.headD []).find? (·.codeSigning) = some certificate ∧
    certificate.subject ≠ []) ∨
  image.signer = none ∧
    ((∃ certificate ∈ image.entries.headD [], certificate.codeSigning) ∨
      ∀ certificates ∈ image.entries, ∀ certificate ∈ certificates, ¬ certificate.codeSigning)

variable {image : Image} {certificate : Certificate} {certificates : List Certificate}
variable {first : List Certificate} {rest : List (List Certificate)}

/-- Every name has a size, so the first code-signing certificate ends the search. -/
theorem searchStore_read (count : ℕ) (certificates : List Certificate) :
    searchStore count (certificates.map Certificate.read) =
      match certificates.find? (·.codeSigning) with
      | some certificate => .named certificate.read
      | none => .exhausted count := by
  induction certificates with
  | nil => rfl
  | cons head tail ih =>
    have hsize : head.read.nameSize ≠ 0 := Nat.succ_ne_zero _
    have hcertificate : head.read.certificate = head := rfl
    rw [List.map_cons, searchStore, hcertificate]
    by_cases hsigning : head.codeSigning
    · rw [List.find?_cons_of_pos hsigning, if_pos hsigning, if_pos hsize]
    · rw [List.find?_cons_of_neg hsigning, if_neg hsigning, ih]

/-- The first entry that there is gives the answer. -/
theorem answer_of_first (hentries : image.entries = first :: rest) :
    (getPeCert image.read).2 =
      match first.find? (·.codeSigning) with
      | some certificate => .subject (some (.subject 0)) certificate.subject
      | none => .text "No Code Signing certificates found\n" := by
  cases hfind : first.find? (·.codeSigning) with
  | some certificate =>
    simp [getPeCert, Image.read, hentries, entriesLoop, certificateData, searchStore_read, hfind,
      returnSubject, Certificate.read]
  | none =>
    simp [getPeCert, Image.read, hentries, entriesLoop, certificateData, searchStore_read, hfind]

theorem signer_named (hsigner : image.signer = some certificate) : certificate.subject ≠ [] := by
  rw [Image.signer] at hsigner
  have hnamed := List.find?_some hsigner
  exact (of_decide_eq_true hnamed).2

theorem signer_eq_none_of_forall
    (hnone : ∀ certificates ∈ image.entries, ∀ certificate ∈ certificates,
      ¬ certificate.codeSigning) : image.signer = none := by
  apply List.find?_eq_none.mpr
  intro certificate hmember hnamed
  obtain ⟨certificates, hcertificates, hinside⟩ := List.mem_flatten.mp hmember
  exact hnone certificates hcertificates certificate hinside (of_decide_eq_true hnamed).1

/-- The first code-signing certificate of the first entry is the signer if it has a name. -/
theorem signer_of_first (hentries : image.entries = first :: rest)
    (hfind : first.find? (·.codeSigning) = some certificate) (hname : certificate.subject ≠ []) :
    image.signer = some certificate := by
  obtain ⟨hsigning, front, back, rfl, hfront⟩ := List.find?_eq_some_iff_append.mp hfind
  have hnamed : certificate.Named := ⟨hsigning, hname⟩
  apply List.find?_eq_some_iff_append.mpr
  refine ⟨decide_eq_true hnamed, front, back ++ rest.flatten, ?_, ?_⟩
  · rw [hentries, List.flatten_cons, List.append_assoc, List.cons_append]
  · intro other hother
    have hplain := hfront other hother
    simp only [Bool.not_eq_true'] at hplain ⊢
    simp [Certificate.Named, hplain]

theorem selectsSigner_of_signing (hentries : image.entries = first :: rest)
    (hfind : first.find? (·.codeSigning) = some certificate) :
    SelectsSigner image ↔ certificate.subject ≠ [] ∨ image.signer = none := by
  have hanswer := answer_of_first hentries
  rw [hfind] at hanswer
  constructor
  · intro hselects
    by_cases hname : certificate.subject = []
    · right
      cases hsigner : image.signer with
      | none => rfl
      | some other =>
        obtain ⟨block, hblock⟩ := hselects.signer other hsigner
        have hsubject : certificate.subject = other.subject := by
          rw [hanswer] at hblock
          exact (Answer.subject.inj hblock).2
        exact absurd (hsubject.symm.trans hname) (signer_named hsigner)
    · exact .inl hname
  · intro hcondition
    constructor
    · intro other hsigner
      rcases hcondition with hname | hnone
      · rw [signer_of_first hentries hfind hname] at hsigner
        cases hsigner
        exact ⟨_, hanswer⟩
      · rw [hnone] at hsigner
        cases hsigner
    · intro htext
      rw [hanswer] at htext
      cases htext

theorem selectsSigner_of_no_signing (hentries : image.entries = first :: rest)
    (hfind : first.find? (·.codeSigning) = none) :
    SelectsSigner image ↔
      ∀ certificates ∈ image.entries, ∀ certificate ∈ certificates, ¬ certificate.codeSigning := by
  have hanswer := answer_of_first hentries
  rw [hfind] at hanswer
  constructor
  · intro hselects
    exact hselects.none_found hanswer
  · intro hnone
    constructor
    · intro other hsigner
      rw [signer_eq_none_of_forall hnone] at hsigner
      cases hsigner
    · intro _
      exact hnone

/-- The signer is selected exactly when the first entry decides. -/
theorem selectsSigner_iff (image : Image) : SelectsSigner image ↔ FirstEntryDecides image := by
  cases hentries : image.entries with
  | nil =>
    have hnone : ∀ certificates ∈ image.entries, ∀ certificate ∈ certificates,
        ¬ certificate.codeSigning := by simp [hentries]
    have hsigner : image.signer = none := signer_eq_none_of_forall hnone
    apply iff_of_true
    · constructor
      · intro certificate hsome
        rw [hsigner] at hsome
        cases hsome
      · intro _
        exact hnone
    · exact .inr ⟨hsigner, .inr hnone⟩
  | cons first rest =>
    cases hfind : first.find? (·.codeSigning) with
    | some certificate =>
      have hsigning : ∃ certificate ∈ first, certificate.codeSigning :=
        ⟨certificate, List.mem_of_find?_eq_some hfind, List.find?_some hfind⟩
      rw [selectsSigner_of_signing hentries hfind]
      simp [FirstEntryDecides, hentries, hfind, hsigning]
    | none =>
      have hplain : ¬ ∃ certificate ∈ first, certificate.codeSigning := by
        simpa using List.find?_eq_none.mp hfind
      rw [selectsSigner_of_no_signing hentries hfind]
      constructor
      · intro hnone
        exact .inr ⟨signer_eq_none_of_forall hnone, .inr hnone⟩
      · rintro (⟨certificate, hsome, -⟩ | ⟨-, hsome | hnone⟩)
        · rw [hentries, List.headD_cons, hfind] at hsome
          cases hsome
        · rw [hentries, List.headD_cons] at hsome
          exact absurd hsome hplain
        · exact hnone

/-- Two entries, the second one with the signer. -/
def twoEntries : Image where
  entries := [[], [⟨true, "Signer".toList⟩]]
  length_le := by decide

theorem twoEntries_not_selected : ¬ SelectsSigner twoEntries := by
  intro hselects
  obtain ⟨block, hblock⟩ := hselects.signer ⟨true, "Signer".toList⟩ (by decide)
  have hentries : twoEntries.entries = [] :: [[⟨true, "Signer".toList⟩]] := rfl
  rw [answer_of_first hentries] at hblock
  cases hblock

end WinProcessThread.PeCertificate
