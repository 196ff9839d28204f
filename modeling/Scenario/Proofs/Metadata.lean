import Mathlib.Data.List.Perm.Basic
import Scenario.Extraction

namespace Scenario.Metadata

open Syntax

/-- The report about a member that is there and cannot be read. -/
def unread {α : Type} (code : Code) (message : String) (read : Node → Option α) (n : Option Node) :
    List Diagnostic :=
  if n.any fun n => (read n).isNone then [{ code, message }] else []

/-- A member of the record of the metadata. -/
def member? (init : Option Node) (name : String) : Option Node :=
  (init.bind objectMembers?).bind fun ms => (members ms).get? name

/-- The reports about the record of the metadata. -/
def recordReports (init : Option Node) : List Diagnostic :=
  if (init.bind objectMembers?).isNone then
    [{ code := .invalidMetadata, message := "SCENARIO must be an object literal" }]
  else
    unread .invalidKey "SCENARIO.key must be a string literal" Node.staticString? (member? init "key")
      ++ unread .invalidMetadata "SCENARIO.version must be a string" Node.staticString?
        (member? init "version")
      ++ unread .invalidMetadata "SCENARIO.buildNumber must be a non-negative integer" wholeNumber?
        (member? init "buildNumber")

/-- The reports about an exported constant. -/
def reports (c : String × Option Node) : List Diagnostic :=
  if c.1 = "SCENARIO_KEY" then
    if (c.2.bind Node.staticString?).isNone then
      [{ code := .invalidKey, message := "SCENARIO_KEY must be a string literal" }]
    else []
  else if c.1 = "SCENARIO" then recordReports c.2
  else []

variable (m : Metadata)

theorem readKey_eq (n : Option Node) :
    { m with listedKey := none }.readKey n =
      { m with
        listedKey := n.bind Node.staticString?
        diagnostics := m.diagnostics
          ++ unread .invalidKey "SCENARIO.key must be a string literal" Node.staticString? n } := by
  cases n with
  | none => simp [readKey, unread]
  | some n => cases h : n.staticString? <;> simp [readKey, unread, report, h]

theorem readVersion_eq (n : Option Node) :
    m.readVersion n =
      { m with
        version := (n.bind Node.staticString?).getD m.version
        diagnostics := m.diagnostics
          ++ unread .invalidMetadata "SCENARIO.version must be a string" Node.staticString? n } := by
  cases n with
  | none => simp [readVersion, unread]
  | some n => cases h : n.staticString? <;> simp [readVersion, unread, report, h]

theorem readBuildNumber_eq (n : Option Node) :
    m.readBuildNumber n =
      { m with
        buildNumber := (n.bind wholeNumber?).getD m.buildNumber
        diagnostics := m.diagnostics
          ++ unread .invalidMetadata "SCENARIO.buildNumber must be a non-negative integer" wholeNumber?
            n } := by
  cases n with
  | none => simp [readBuildNumber, unread]
  | some n => cases h : wholeNumber? n <;> simp [readBuildNumber, unread, report, h]

theorem readRecord_eq (init : Option Node) :
    m.readRecord init =
      { m with
        listedKey := (member? init "key").bind Node.staticString?
        version := ((member? init "version").bind Node.staticString?).getD m.version
        buildNumber := ((member? init "buildNumber").bind wholeNumber?).getD m.buildNumber
        diagnostics := m.diagnostics ++ recordReports init } := by
  unfold readRecord recordReports member?
  cases init.bind objectMembers? with
  | none => rfl
  | some ms => simp [readKey_eq, readVersion_eq, readBuildNumber_eq]

/-- What an exported constant changes: the key, if it is the key, and else all that the record of the
metadata gives, if it is that. -/
theorem readConstant_eq (name : String) (init : Option Node) :
    m.readConstant name init =
      { exportedKey := if name = "SCENARIO_KEY" then init.bind Node.staticString? else m.exportedKey
        listedKey :=
          if name = "SCENARIO" then (member? init "key").bind Node.staticString? else m.listedKey
        version :=
          if name = "SCENARIO" then ((member? init "version").bind Node.staticString?).getD m.version
          else m.version
        buildNumber :=
          if name = "SCENARIO" then ((member? init "buildNumber").bind wholeNumber?).getD m.buildNumber
          else m.buildNumber
        diagnostics := m.diagnostics ++ reports (name, init) } := by
  by_cases hkey : name = "SCENARIO_KEY"
  · subst hkey
    cases h : init.bind Node.staticString? <;> simp [readConstant, reports, report, h]
  · by_cases hrecord : name = "SCENARIO"
    · subst hrecord
      simp [readConstant, reports, readRecord_eq]
    · simp [readConstant, reports, hkey, hrecord]

theorem isError_of_mem_unread {α : Type} {code : Code} {message : String} {read : Node → Option α}
    {n : Option Node} {d : Diagnostic} (h : d ∈ unread code message read n) : d.isError = true := by
  unfold unread at h
  split at h
  · rw [List.mem_singleton.1 h]
    rfl
  · cases h

/-- All that is wrong with the metadata is an error. -/
theorem isError_of_mem_reports {c : String × Option Node} {d : Diagnostic} (h : d ∈ reports c) :
    d.isError = true := by
  unfold reports recordReports at h
  split at h
  · split at h
    · rw [List.mem_singleton.1 h]
      rfl
    · cases h
  · split at h
    · split at h
      · rw [List.mem_singleton.1 h]
        rfl
      · rcases List.mem_append.1 h with h | h
        · rcases List.mem_append.1 h with h | h
          · exact isError_of_mem_unread h
          · exact isError_of_mem_unread h
        · exact isError_of_mem_unread h
    · cases h

theorem diagnostics_foldl (cs : List (String × Option Node)) :
    (cs.foldl (fun m c => m.readConstant c.1 c.2) m).diagnostics =
      m.diagnostics ++ cs.flatMap reports := by
  induction cs generalizing m with
  | nil => simp
  | cons c more ih =>
    rw [List.foldl_cons, ih, readConstant_eq, List.flatMap_cons, List.append_assoc]

theorem diagnostics_ofProgram (body : List Node) :
    (ofProgram body).diagnostics = (body.flatMap exportedConstants).flatMap reports :=
  diagnostics_foldl {} _

/-- What is read, without the reports. -/
def found : Metadata := { m with diagnostics := [] }

theorem found_readConstant (name : String) (init : Option Node) :
    (m.readConstant name init).found = (m.found.readConstant name init).found := by
  simp only [readConstant_eq, found]

theorem found_foldl (cs : List (String × Option Node)) :
    (cs.foldl (fun m c => m.readConstant c.1 c.2) m).found =
      cs.foldl (fun m c => (m.readConstant c.1 c.2).found) m.found := by
  induction cs generalizing m with
  | nil => rfl
  | cons c more ih =>
    rw [List.foldl_cons, List.foldl_cons, ih, ← found_readConstant]

/-- Two constants that are read for different things. -/
theorem found_readConstant_comm {c d : String × Option Node}
    (hkey : c.1 = "SCENARIO_KEY" → d.1 = "SCENARIO_KEY" → c = d)
    (hrecord : c.1 = "SCENARIO" → d.1 = "SCENARIO" → c = d) :
    ((m.readConstant c.1 c.2).found.readConstant d.1 d.2).found =
      ((m.readConstant d.1 d.2).found.readConstant c.1 c.2).found := by
  by_cases heq : c = d
  · rw [heq]
  have hk : ¬(c.1 = "SCENARIO_KEY" ∧ d.1 = "SCENARIO_KEY") := fun h => heq (hkey h.1 h.2)
  have hr : ¬(c.1 = "SCENARIO" ∧ d.1 = "SCENARIO") := fun h => heq (hrecord h.1 h.2)
  simp only [readConstant_eq, found, Metadata.mk.injEq, and_true]
  refine ⟨?_, ?_, ?_, ?_⟩
  · grind
  · grind
  · grind
  · grind

end Scenario.Metadata

namespace Scenario

open Syntax

/-- Of what there is at most one among some things, no two are different. -/
theorem eq_of_length_filter_le_one {α : Type} {p : α → Bool} {as : List α} {a b : α}
    (h : (as.filter p).length ≤ 1) (ha : a ∈ as) (hb : b ∈ as) (hpa : p a = true)
    (hpb : p b = true) : a = b := by
  have ha : a ∈ as.filter p := List.mem_filter.2 ⟨ha, hpa⟩
  have hb : b ∈ as.filter p := List.mem_filter.2 ⟨hb, hpb⟩
  match hf : as.filter p with
  | [] =>
    rw [hf] at ha
    cases ha
  | [c] =>
    rw [hf] at ha hb
    rw [List.mem_singleton.1 ha, List.mem_singleton.1 hb]
  | _ :: _ :: _ =>
    rw [hf] at h
    simp at h

namespace Metadata

/-- Statements in another order give the same metadata and the same reports in another order. -/
theorem ofProgram_perm {body body' : List Node} (h : body.Perm body')
    (hkey : ((body.flatMap exportedConstants).filter (·.1 = "SCENARIO_KEY")).length ≤ 1)
    (hrecord : ((body.flatMap exportedConstants).filter (·.1 = "SCENARIO")).length ≤ 1) :
    (ofProgram body').found = (ofProgram body).found ∧
      (ofProgram body').diagnostics.Perm (ofProgram body).diagnostics := by
  have hconstants := h.flatMap_right exportedConstants
  have hfound (body : List Node) : (ofProgram body).found =
      (body.flatMap exportedConstants).foldl (fun m c => (m.readConstant c.1 c.2).found) {} :=
    found_foldl {} _
  constructor
  · rw [hfound, hfound]
    symm
    refine hconstants.foldl_eq' ?_ _
    intro c hc d hd m
    refine found_readConstant_comm m ?_ ?_
    · intro h₁ h₂
      exact eq_of_length_filter_le_one hkey hc hd (by simpa using h₁) (by simpa using h₂)
    · intro h₁ h₂
      exact eq_of_length_filter_le_one hrecord hc hd (by simpa using h₁) (by simpa using h₂)
  · rw [diagnostics_ofProgram, diagnostics_ofProgram]
    exact (hconstants.flatMap_right reports).symm

end Metadata

end Scenario
