import WinProcessThread.PeCertificate.GetPeCert

/-!
# The resources of `get_pe_cert`

An entry that does not end the function gives back what was obtained for it.  All other ways out
but the last one leave the file or a store open.
-/

namespace WinProcessThread.PeCertificate

open Resource (Access)
open Service (DWORD)

/-! ## The property -/

/-- The block that is returned. -/
def Answer.returned : Answer → Option Acquired
  | .subject block _ => block
  | .text _ | .crashed => none

/-- On a path out of the function everything obtained has been released once, but for the returned
block, which has not been freed. -/
def Balanced (outcome : Outcome) : Prop :=
  (getPeCert outcome).2 ≠ .crashed → ∀ resource, .obtain resource ∈ (getPeCert outcome).1 →
    (getPeCert outcome).1.count (.release resource) =
      if (getPeCert outcome).2.returned = some resource then 0 else 1

/-- The store of the entry is open. -/
structure EntryOutcome.Opened (outcome : EntryOutcome) : Prop where
  size : outcome.sizeError = some errorInsufficientBuffer
  cert : outcome.certAllocated
  data : outcome.dataRead
  store : outcome.storeOpened

/-- The loop goes on behind the entry: it has code-signing certificates, and none with a name. -/
structure EntryOutcome.Passes (outcome : EntryOutcome) : Prop extends outcome.Opened where
  keyUsage : outcome.keyUsageAllocated
  signing : ∃ certificate ∈ outcome.certificates, certificate.certificate.codeSigning
  unnamed : ∀ certificate ∈ outcome.certificates, certificate.certificate.codeSigning →
    certificate.nameSize = 0

structure EntryOutcome.Crashes (outcome : EntryOutcome) : Prop extends outcome.Opened where
  keyUsage : outcome.keyUsageAllocated = false

/-- The function opens nothing, goes through all entries, or does not come to an end. -/
def CleansUp (outcome : Outcome) : Prop :=
  outcome.fileOpened = false ∨
    outcome.enumerated ∧ (outcome.entries ≠ [] ∧ (∀ entry ∈ outcome.entries, entry.Passes) ∨
      ∃ before entry after, outcome.entries = before ++ entry :: after ∧
        (∀ earlier ∈ before, earlier.Passes) ∧ entry.Crashes)

/-! ## One entry -/

variable {outcome : EntryOutcome} {entry : ℕ} {resource : Acquired}
variable {certificates : List CertificateOutcome} {entries : List EntryOutcome}

theorem searchStore_of_unnamed (count : ℕ)
    (hunnamed : ∀ certificate ∈ certificates, certificate.certificate.codeSigning →
      certificate.nameSize = 0) :
    searchStore count certificates =
      .exhausted (count + certificates.countP (·.certificate.codeSigning)) := by
  induction certificates generalizing count with
  | nil => rfl
  | cons head tail ih =>
    obtain ⟨hhead, htail⟩ := List.forall_mem_cons.mp hunnamed
    by_cases hsigning : head.certificate.codeSigning
    · calc
        searchStore count (head :: tail) = searchStore (count + 1) tail := by
          rw [searchStore, if_pos hsigning, if_neg (not_not_intro (hhead hsigning))]
        _ = .exhausted (count + 1 + tail.countP (·.certificate.codeSigning)) := ih _ htail
        _ = .exhausted (count + (head :: tail).countP (·.certificate.codeSigning)) := by
          rw [List.countP_cons, if_pos hsigning, Nat.add_right_comm, Nat.add_assoc]
    · calc
        searchStore count (head :: tail) = searchStore count tail := by
          rw [searchStore, if_neg hsigning]
        _ = .exhausted (count + tail.countP (·.certificate.codeSigning)) := ih _ htail
        _ = .exhausted (count + (head :: tail).countP (·.certificate.codeSigning)) := by
          rw [List.countP_cons, if_neg hsigning, Nat.add_zero]

theorem searchStore_of_named (count : ℕ)
    (hnamed : ∃ certificate ∈ certificates, certificate.certificate.codeSigning ∧
      certificate.nameSize ≠ 0) :
    ∃ certificate, searchStore count certificates = .named certificate := by
  induction certificates generalizing count with
  | nil => exact absurd hnamed (by simp)
  | cons head tail ih =>
    rw [searchStore]
    by_cases hhead : head.certificate.codeSigning ∧ head.nameSize ≠ 0
    · exact ⟨head, by rw [if_pos hhead.1, if_pos hhead.2]⟩
    · have htail : ∃ certificate ∈ tail, certificate.certificate.codeSigning ∧
          certificate.nameSize ≠ 0 := by
        obtain ⟨certificate, hmember, hcertificate⟩ := hnamed
        rcases List.mem_cons.mp hmember with rfl | hinside
        · exact absurd hcertificate hhead
        · exact ⟨certificate, hinside, hcertificate⟩
      split_ifs with hsigning hsize
      · exact absurd ⟨hsigning, hsize⟩ hhead
      · exact ih _ htail
      · exact ih _ htail

/-- What is done for an entry that passes. -/
def passAccesses (entry : ℕ) : List (Access Acquired) :=
  [.obtain (.cert entry), .obtain (.store entry), .obtain (.keyUsage entry),
    .release (.keyUsage entry), .release (.store entry), .release (.cert entry)]

/-- The search in the store decides about an entry that gets so far. -/
theorem certificateData_of_opened (entry : ℕ) (hopened : outcome.Opened)
    (hkeyUsage : outcome.keyUsageAllocated = true) :
    certificateData entry outcome =
      match searchStore 0 outcome.certificates with
      | .named certificate =>
        ([.obtain (.cert entry), .obtain (.store entry), .obtain (.keyUsage entry)] ++
          (returnSubject entry certificate).1, some (returnSubject entry certificate).2)
      | .exhausted 0 =>
        ([.obtain (.cert entry), .obtain (.store entry), .obtain (.keyUsage entry)],
          some (.text "No Code Signing certificates found\n"))
      | .exhausted (_ + 1) => (passAccesses entry, none) := by
  rw [certificateData, if_pos hopened.size, hopened.cert, hopened.data, Bool.and_self, if_pos rfl,
    if_pos hopened.store]
  dsimp only
  rw [if_pos hkeyUsage]
  cases searchStore 0 outcome.certificates with
  | named certificate => rfl
  | exhausted count =>
    cases count with
    | zero => rfl
    | succ count => rfl

theorem certificateData_of_passes (hpasses : outcome.Passes) :
    certificateData entry outcome = (passAccesses entry, none) := by
  have hsome : 0 < outcome.certificates.countP (·.certificate.codeSigning) :=
    List.countP_pos_iff.mpr hpasses.signing
  obtain ⟨count, hcount⟩ := Nat.exists_eq_add_of_lt hsome
  rw [certificateData_of_opened entry hpasses.toOpened hpasses.keyUsage,
    searchStore_of_unnamed 0 hpasses.unnamed, hcount]

theorem certificateData_of_crashes (entry : ℕ) (hcrashes : outcome.Crashes) :
    ∃ accesses, certificateData entry outcome = (accesses, some .crashed) := by
  rw [certificateData, if_pos hcrashes.size, hcrashes.cert, hcrashes.data, Bool.and_self,
    if_pos rfl, if_pos hcrashes.store]
  dsimp only
  rw [hcrashes.keyUsage, if_neg Bool.false_ne_true]
  exact ⟨_, rfl⟩

/-- A path out on which the file stays open, or the store of the entry. -/
def Leaks (entry : ℕ) (accesses : List (Access Acquired)) (answer : Answer) : Prop :=
  answer ≠ .crashed ∧ ∃ resource, resource ∈ [Acquired.file, .store entry] ∧
    (resource = .file ∨ .obtain resource ∈ accesses) ∧ .release resource ∉ accesses ∧
      answer.returned ≠ some resource

@[simp]
theorem release_not_mem_allocated {success : Bool} {other : Acquired} :
    .release resource ∉ allocated success (.obtain other) := by
  cases success <;> simp [allocated]

theorem leaks_of_text {accesses : List (Access Acquired)} (message : String)
    (hfile : .release .file ∉ accesses) : Leaks entry accesses (.text message) :=
  ⟨by simp, .file, by simp, .inl rfl, hfile, by simp [Answer.returned]⟩

/-- Nothing closes the store when a name is returned. -/
theorem leaks_of_subject {certificate : CertificateOutcome} :
    Leaks entry ([.obtain (.cert entry), .obtain (.store entry), .obtain (.keyUsage entry)] ++
      (returnSubject entry certificate).1) (returnSubject entry certificate).2 := by
  refine ⟨by simp [returnSubject], .store entry, by simp, .inr (by simp), ?_, ?_⟩
  · cases certificate.subjectAllocated with
    | false => simp [returnSubject, allocated]
    | true => simp [returnSubject, allocated]
  · simp only [returnSubject, Answer.returned]
    split_ifs with hallocated
    · simp
    · simp

/-- An entry whose store is not opened ends the function with the file open. -/
theorem certificateData_of_not_opened (entry : ℕ) (hopened : ¬ outcome.Opened) :
    ∃ accesses answer, certificateData entry outcome = (accesses, some answer) ∧
      Leaks entry accesses answer := by
  rw [certificateData]
  by_cases hsize : outcome.sizeError = some errorInsufficientBuffer
  · rw [if_pos hsize]
    by_cases hdata : (outcome.certAllocated && outcome.dataRead) = true
    · obtain ⟨hcert, hread⟩ := Bool.and_eq_true_iff.mp hdata
      have hstore : ¬ outcome.storeOpened = true := fun hstore ↦
        hopened ⟨hsize, hcert, hread, hstore⟩
      rw [if_pos hdata, if_neg hstore]
      exact ⟨_, _, rfl, leaks_of_text _ (by simp)⟩
    · rw [if_neg hdata]
      exact ⟨_, _, rfl, leaks_of_text _ (by simp)⟩
  · rw [if_neg hsize]
    exact ⟨_, _, rfl, leaks_of_text _ (by simp)⟩

/-- Any other entry ends the function and leaves something open. -/
theorem certificateData_of_other (entry : ℕ) (hpasses : ¬ outcome.Passes)
    (hcrashes : ¬ outcome.Crashes) :
    ∃ accesses answer, certificateData entry outcome = (accesses, some answer) ∧
      Leaks entry accesses answer := by
  by_cases hopened : outcome.Opened
  · have hkeyUsage : outcome.keyUsageAllocated = true := by
      by_contra hnull
      exact hcrashes ⟨hopened, Bool.eq_false_of_not_eq_true hnull⟩
    rw [certificateData_of_opened entry hopened hkeyUsage]
    by_cases hnamed : ∃ certificate ∈ outcome.certificates,
        certificate.certificate.codeSigning ∧ certificate.nameSize ≠ 0
    · obtain ⟨certificate, hsearch⟩ := searchStore_of_named 0 hnamed
      rw [hsearch]
      exact ⟨_, _, rfl, leaks_of_subject⟩
    · push Not at hnamed
      have hnone : 0 + outcome.certificates.countP (·.certificate.codeSigning) = 0 := by
        rw [Nat.zero_add, List.countP_eq_zero]
        intro certificate hmember hsigning
        exact hpasses ⟨hopened, hkeyUsage, ⟨certificate, hmember, hsigning⟩, hnamed⟩
      rw [searchStore_of_unnamed 0 hnamed, hnone]
      exact ⟨_, _, rfl, leaks_of_text _ (by simp)⟩
  · exact certificateData_of_not_opened entry hopened

/-! ## The loop -/

/-- What is done for this many entries that pass, from an entry on. -/
def passesAccesses (entry count : ℕ) : List (Access Acquired) :=
  (List.range' entry count).flatMap passAccesses

theorem entriesLoop_of_passes (entry : ℕ) (hpasses : ∀ outcome ∈ entries, outcome.Passes)
    (rest : List EntryOutcome) :
    entriesLoop entry (entries ++ rest) =
      (passesAccesses entry entries.length ++ (entriesLoop (entry + entries.length) rest).1,
        (entriesLoop (entry + entries.length) rest).2) := by
  induction entries generalizing entry with
  | nil => rfl
  | cons outcome more ih =>
    obtain ⟨houtcome, hmore⟩ := List.forall_mem_cons.mp hpasses
    have hlength : entry + 1 + more.length = entry + (outcome :: more).length := by
      rw [List.length_cons, Nat.add_assoc, Nat.add_comm 1]
    have haccesses : passesAccesses entry (outcome :: more).length =
        passAccesses entry ++ passesAccesses (entry + 1) more.length := by
      rw [passesAccesses, List.length_cons, List.range'_succ, List.flatMap_cons, passesAccesses]
    rw [List.cons_append, entriesLoop, certificateData_of_passes houtcome]
    dsimp only
    rw [ih (entry + 1) hmore, haccesses, hlength, List.append_assoc]

theorem release_mem_passesAccesses {count : ℕ}
    (hrelease : .release resource ∈ passesAccesses entry count) :
    ∃ index, entry ≤ index ∧ index < entry + count ∧
      .release resource ∈ passAccesses index := by
  obtain ⟨index, hindex, hmember⟩ := List.mem_flatMap.mp hrelease
  rw [List.mem_range'_1] at hindex
  exact ⟨index, hindex.1, hindex.2, hmember⟩

theorem obtain_mem_passAccesses :
    .obtain resource ∈ passAccesses entry ↔
      resource = .cert entry ∨ resource = .store entry ∨ resource = .keyUsage entry := by
  simp [passAccesses]

theorem release_mem_passAccesses :
    .release resource ∈ passAccesses entry ↔
      resource = .keyUsage entry ∨ resource = .store entry ∨ resource = .cert entry := by
  simp [passAccesses]

/-- What an entry obtains it releases once, and no other entry does. -/
theorem count_release_passesAccesses {count : ℕ}
    (hobtain : .obtain resource ∈ passesAccesses entry count) :
    (passesAccesses entry count).count (.release resource) = 1 := by
  obtain ⟨index, hindex, hmember⟩ := List.mem_flatMap.mp hobtain
  obtain ⟨front, back, hsplit⟩ := List.append_of_mem hindex
  have hnodup : (front ++ index :: back).Nodup := hsplit ▸ List.nodup_range'
  rw [obtain_mem_passAccesses] at hmember
  have hother : ∀ other, other ≠ index → .release resource ∉ passAccesses other := by
    intro other hother
    rw [release_mem_passAccesses]
    rcases hmember with rfl | rfl | rfl <;> simp [Ne.symm hother]
  have hnone : ∀ others : List ℕ, index ∉ others →
      (others.flatMap passAccesses).count (.release resource) = 0 := by
    intro others hothers
    apply List.count_eq_zero_of_not_mem
    intro hrelease
    obtain ⟨other, hinside, hrelease⟩ := List.mem_flatMap.mp hrelease
    exact hother other (ne_of_mem_of_not_mem hinside hothers) hrelease
  have hone : (passAccesses index).count (.release resource) = 1 := by
    rcases hmember with rfl | rfl | rfl <;> simp [passAccesses]
  obtain ⟨-, hback, hdisjoint⟩ := List.nodup_append.mp hnodup
  have hfront : index ∉ front := fun hinside ↦
    hdisjoint index hinside index List.mem_cons_self rfl
  calc
    (passesAccesses entry count).count (.release resource) =
        (front.flatMap passAccesses).count (.release resource) +
          ((passAccesses index).count (.release resource) +
            (back.flatMap passAccesses).count (.release resource)) := by
      rw [passesAccesses, hsplit, List.flatMap_append, List.flatMap_cons, List.count_append,
        List.count_append]
    _ = 1 := by
      rw [hnone front hfront, hnone back (List.nodup_cons.mp hback).1, hone]

/-! ## The function -/

variable {api : Outcome}

/-- The entries in front release neither the file nor a later store. -/
theorem release_not_mem_passesAccesses {count : ℕ}
    (hresource : resource ∈ [Acquired.file, .store count]) :
    .release resource ∉ passesAccesses 0 count := by
  intro hmember
  obtain ⟨index, -, hindex, hindexRelease⟩ := release_mem_passesAccesses hmember
  rw [release_mem_passAccesses] at hindexRelease
  rcases List.mem_pair.mp hresource with rfl | rfl
  · simp at hindexRelease
  · simp only [reduceCtorEq, Acquired.store.injEq, false_or, or_false] at hindexRelease
    omega

/-- The first entry that does not pass decides about the function. -/
theorem getPeCert_of_first {before after : List EntryOutcome}
    {accesses : List (Access Acquired)} {answer : Answer} (hfile : api.fileOpened = true)
    (henumerated : api.enumerated = true) (hentries : api.entries = before ++ outcome :: after)
    (hbefore : ∀ earlier ∈ before, earlier.Passes)
    (hdata : certificateData before.length outcome = (accesses, some answer)) :
    getPeCert api =
      (.obtain .file :: (passesAccesses 0 before.length ++ accesses), answer) := by
  have hne : before ++ outcome :: after ≠ [] := by simp
  have hloop : entriesLoop 0 (before ++ outcome :: after) =
      (passesAccesses 0 before.length ++ accesses, some answer) := by
    rw [entriesLoop_of_passes 0 hbefore, Nat.zero_add, entriesLoop, hdata]
  rw [getPeCert, if_pos hfile, if_pos henumerated, hentries, if_neg hne, hloop]

/-- A leak at the first entry that does not pass is one of the function. -/
theorem not_balanced_of_leaks {before after : List EntryOutcome}
    {accesses : List (Access Acquired)} {answer : Answer} (hfile : api.fileOpened = true)
    (henumerated : api.enumerated = true) (hentries : api.entries = before ++ outcome :: after)
    (hbefore : ∀ earlier ∈ before, earlier.Passes)
    (hdata : certificateData before.length outcome = (accesses, some answer))
    (hleaks : Leaks before.length accesses answer) : ¬ Balanced api := by
  obtain ⟨hcrashed, resource, hresource, hobtain, hrelease, hreturned⟩ := hleaks
  have hrun := getPeCert_of_first hfile henumerated hentries hbefore hdata
  have hpasses : .release resource ∉ passesAccesses 0 before.length :=
    release_not_mem_passesAccesses hresource
  intro hbalanced
  have hcount := hbalanced (by rw [hrun]; exact hcrashed) resource (by
    rw [hrun]
    rcases hobtain with rfl | hinside
    · exact List.mem_cons_self
    · exact List.mem_cons_of_mem _ (List.mem_append_right _ hinside))
  rw [hrun] at hcount
  dsimp only at hcount
  rw [if_neg hreturned, List.count_eq_zero_of_not_mem] at hcount
  · exact absurd hcount Nat.zero_ne_one
  · intro hmember
    rcases List.mem_cons.mp hmember with hfirst | hinside
    · cases hfirst
    · rcases List.mem_append.mp hinside with hpass | hlast
      · exact hpasses hpass
      · exact hrelease hlast

/-- The last way out releases everything. -/
theorem balanced_of_passes (hfile : api.fileOpened = true) (henumerated : api.enumerated = true)
    (hne : api.entries ≠ []) (hpasses : ∀ entry ∈ api.entries, entry.Passes) : Balanced api := by
  have hloop := entriesLoop_of_passes 0 hpasses []
  rw [List.append_nil, entriesLoop, List.append_nil] at hloop
  have hrun : getPeCert api =
      (.obtain .file :: passesAccesses 0 api.entries.length ++ [.release .file], .text "NeN") := by
    rw [getPeCert, if_pos hfile, if_pos henumerated, if_neg hne, hloop]
  intro _ resource hobtain
  rw [hrun] at hobtain ⊢
  rw [if_neg (by simp [Answer.returned]), List.count_append, List.count_cons_of_ne (by simp)]
  by_cases hresource : resource = .file
  · subst hresource
    have hnone : .release .file ∉ passesAccesses 0 api.entries.length := by
      intro hmember
      obtain ⟨index, -, -, hindex⟩ := release_mem_passesAccesses hmember
      simp [release_mem_passAccesses] at hindex
    rw [List.count_eq_zero_of_not_mem hnone]
    simp
  · have hinside : .obtain resource ∈ passesAccesses 0 api.entries.length := by
      simpa [hresource] using hobtain
    rw [count_release_passesAccesses hinside, List.count_eq_zero_of_not_mem]
    simpa using hresource

/-- The first entry that does not pass. -/
theorem passes_or_first (entries : List EntryOutcome) :
    (∀ entry ∈ entries, entry.Passes) ∨
      ∃ before entry after, entries = before ++ entry :: after ∧
        (∀ earlier ∈ before, earlier.Passes) ∧ ¬ entry.Passes := by
  classical
  cases hfind : entries.find? fun entry ↦ ¬ entry.Passes with
  | none =>
    left
    simpa using hfind
  | some entry =>
    obtain ⟨hentry, before, after, hsplit, hbefore⟩ := List.find?_eq_some_iff_append.mp hfind
    exact .inr ⟨before, entry, after, hsplit, by simpa using hbefore, by simpa using hentry⟩

theorem EntryOutcome.Crashes.not_passes (hcrashes : outcome.Crashes) : ¬ outcome.Passes := by
  intro hpasses
  exact Bool.false_ne_true (hcrashes.keyUsage.symm.trans hpasses.keyUsage)

/-- There is only one such entry. -/
theorem first_unique {before before' after after' : List EntryOutcome} {entry entry' : EntryOutcome}
    (hsplit : before ++ entry :: after = before' ++ entry' :: after')
    (hbefore : ∀ earlier ∈ before, earlier.Passes) (hentry : ¬ entry.Passes)
    (hbefore' : ∀ earlier ∈ before', earlier.Passes) (hentry' : ¬ entry'.Passes) :
    entry = entry' := by
  classical
  have hfirst {front back : List EntryOutcome} {first : EntryOutcome}
      (hfront : ∀ earlier ∈ front, earlier.Passes) (hnot : ¬ first.Passes) :
      (front ++ first :: back).find? (fun outcome ↦ ¬ outcome.Passes) = some first :=
    List.find?_eq_some_iff_append.mpr
      ⟨by simpa using hnot, front, back, rfl, by simpa using hfront⟩
  apply Option.some.inj
  calc some entry
      = (before ++ entry :: after).find? fun outcome ↦ ¬ outcome.Passes :=
        (hfirst hbefore hentry).symm
    _ = (before' ++ entry' :: after').find? fun outcome ↦ ¬ outcome.Passes := by rw [hsplit]
    _ = some entry' := hfirst hbefore' hentry'

/-- Without an answer from the entries only the file has been obtained. -/
theorem not_balanced_of_text {message : String}
    (hrun : getPeCert api = ([.obtain .file], .text message)) : ¬ Balanced api := by
  intro hbalanced
  have hcount := hbalanced (by simp [hrun]) .file (by simp [hrun])
  simp [hrun, Answer.returned] at hcount

theorem balanced_of_crashes {before after : List EntryOutcome} (hfile : api.fileOpened = true)
    (henumerated : api.enumerated = true) (hentries : api.entries = before ++ outcome :: after)
    (hbefore : ∀ earlier ∈ before, earlier.Passes) (hcrashes : outcome.Crashes) : Balanced api := by
  obtain ⟨accesses, hdata⟩ := certificateData_of_crashes before.length hcrashes
  have hrun : (getPeCert api).2 = .crashed :=
    congrArg Prod.snd (getPeCert_of_first hfile henumerated hentries hbefore hdata)
  intro hcrashed
  exact absurd hrun hcrashed

/-- Behind an enumeration with entries, the first one that does not pass decides. -/
theorem balanced_iff_of_enumerated (hfile : api.fileOpened = true)
    (henumerated : api.enumerated = true) :
    Balanced api ↔ api.entries ≠ [] ∧ (∀ entry ∈ api.entries, entry.Passes) ∨
      ∃ before entry after, api.entries = before ++ entry :: after ∧
        (∀ earlier ∈ before, earlier.Passes) ∧ entry.Crashes := by
  rcases passes_or_first api.entries with
    hpasses | ⟨before, entry, after, hentries, hbefore, hfirst⟩
  · by_cases hne : api.entries = []
    · apply iff_of_false
      · apply not_balanced_of_text
        rw [getPeCert, if_pos hfile, if_pos henumerated, if_pos hne]
      · simp [hne]
    · exact iff_of_true (balanced_of_passes hfile henumerated hne hpasses) (.inl ⟨hne, hpasses⟩)
  · by_cases hcrashes : entry.Crashes
    · exact iff_of_true (balanced_of_crashes hfile henumerated hentries hbefore hcrashes)
        (.inr ⟨before, entry, after, hentries, hbefore, hcrashes⟩)
    · obtain ⟨accesses, answer, hdata, hleaks⟩ :=
        certificateData_of_other before.length hfirst hcrashes
      apply iff_of_false
      · exact not_balanced_of_leaks hfile henumerated hentries hbefore hdata hleaks
      · rintro (⟨-, hpasses⟩ | ⟨before', entry', after', hsplit, hbefore', hcrashes'⟩)
        · exact hfirst (hpasses entry (by simp [hentries]))
        · have heq : entry = entry' := first_unique (hentries.symm.trans hsplit) hbefore hfirst
            hbefore' hcrashes'.not_passes
          exact hcrashes (heq ▸ hcrashes')

/-- Everything is released exactly when nothing is opened, when all entries pass, or when the
function does not come to an end. -/
theorem balanced_iff_cleansUp (api : Outcome) : Balanced api ↔ CleansUp api := by
  by_cases hfile : api.fileOpened = true
  · have hopened : api.fileOpened ≠ false := Bool.ne_false_iff.mpr hfile
    by_cases henumerated : api.enumerated = true
    · rw [balanced_iff_of_enumerated hfile henumerated, CleansUp, or_iff_right hopened,
        and_iff_right henumerated]
    · apply iff_of_false
      · apply not_balanced_of_text
        rw [getPeCert, if_pos hfile, if_neg henumerated]
      · rintro (hclosed | ⟨henumeration, -⟩)
        · exact hopened hclosed
        · exact henumerated henumeration
  · apply iff_of_true
    · intro _ resource hobtain
      rw [getPeCert, if_neg hfile] at hobtain
      cases hobtain
    · exact .inl (Bool.eq_false_of_not_eq_true hfile)

/-- An image without certificates. -/
def unsignedImage : Outcome where
  fileOpened := true
  enumerated := true
  entries := []

theorem unsignedImage_not_balanced : ¬ Balanced unsignedImage :=
  not_balanced_of_text rfl

end WinProcessThread.PeCertificate
