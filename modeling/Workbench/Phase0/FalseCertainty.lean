import Workbench.Lib.Sha256
import Workbench.Phase0.CrashConsistency

/-!
# False certainty after a crash

What a conclusive classification says about the evidence, and what a repeated write of the terminal package returns.
A classification takes the status of the journal at its word when the journal has no gap, its package is written and
the broker is known; it compares neither the broker's order ids with the persisted legs nor a digest with a missing
one. A package is a function of the journal and of how the remote evidence stands to it, so that a write that is
repeated returns the first package until the acknowledgement is written down or the remote evidence moves.
-/

namespace Workbench.Phase0
open Workbench.Lib List Option
variable {remote : Option RemoteEvidence} {P : Python} {journal : JournalRecord} {broker : BrokerTruth}

/-! ## Conclusive classifications -/

/-- The broker holds the persisted legs and no others, and a remote digest that is there is the local one. -/
def Agree (journal : JournalRecord) (broker : BrokerTruth) (remote : RemoteEvidence) : Prop :=
  (∀ id, id ∈ broker.clientOrderIds ↔ id ∈ journal.legsPersisted) ∧
    (remote.present = true → ∀ digest, remote.digest = some digest → journal.localEvidenceDigest = some digest)

def Certain (journal : JournalRecord) (broker : BrokerTruth) (remote : RemoteEvidence) : Prop :=
  broker.known = true ∧ (∀ leg ∈ journal.legsIntent, leg ∈ journal.legsPersisted) ∧ Agree journal broker remote

/-- The evidence under which a terminal status is taken at its word. -/
def Recorded (journal : JournalRecord) (broker : BrokerTruth) (remote : RemoteEvidence) : Prop :=
  disagrees journal remote = false ∧ incomplete journal remote = false ∧ submitGap journal = [] ∧
    journal.packageWritten = true ∧ broker.known = true ∧
    (journal.statusWritten = some .terminal ∨ journal.statusWritten = some .reconciled)

lemma submitGap_eq_nil : submitGap journal = [] ↔ ∀ leg ∈ journal.legsIntent, leg ∈ journal.legsPersisted := by
  simp [submitGap, filter_eq_nil_iff]

lemma classifyInterrupt_cases (P : Python) (journal : JournalRecord) (broker : BrokerTruth)
    (remote : Option RemoteEvidence) :
    Recorded journal broker (remote.getD .absent) ∧ (classifyInterrupt P journal broker remote).conclusive = true ∨
      ¬ Recorded journal broker (remote.getD .absent) ∧ (classifyInterrupt P journal broker remote).conclusive = false ∧
        (classifyInterrupt P journal broker remote).status ≠ .terminal := by
  simp only [classifyInterrupt, Recorded]
  generalize remote.getD .absent = evidence
  cases disagree : disagrees journal evidence with
  | true => simp
  | false =>
    cases partly : incomplete journal evidence with
    | true => simp
    | false =>
      by_cases whole : submitGap journal = []
      · cases journal.packageWritten with
        | false => simp [whole]
        | true =>
          cases written : journal.statusWritten with
          | none => simp [whole]
          | some status =>
            cases broker.known with
            | false => simp [whole]
            | true => cases status <;> simp [whole]
      · cases broker.known <;> simp [whole]

lemma classifyInterrupt_conclusive (P : Python) (journal : JournalRecord) (broker : BrokerTruth)
    (remote : Option RemoteEvidence) :
    (classifyInterrupt P journal broker remote).conclusive = true ↔ Recorded journal broker (remote.getD .absent) := by
  obtain ⟨recorded, conclusive⟩ | ⟨unrecorded, unsure, -⟩ := classifyInterrupt_cases P journal broker remote
  · simp [recorded, conclusive]
  · simp [unrecorded, unsure]

lemma classifyInterrupt_terminal (terminal : (classifyInterrupt P journal broker remote).status = .terminal) :
    (classifyInterrupt P journal broker remote).conclusive = true := by
  obtain ⟨-, conclusive⟩ | ⟨-, -, notTerminal⟩ := classifyInterrupt_cases P journal broker remote
  · exact conclusive
  · exact absurd terminal notTerminal

lemma reconcileAfterRestart_conclusive : (reconcileAfterRestart P journal broker remote).conclusive = true ↔
      Recorded journal broker (remote.getD .absent) ∨ canReconcile journal broker (remote.getD .absent) = true := by
  have classified := classifyInterrupt_conclusive P journal broker (some (remote.getD .absent))
  rw [reconcileAfterRestart, if_neg fun ⟨terminal, unsure⟩ => by simp [classifyInterrupt_terminal terminal] at unsure]
  split
  · rename_i promoted
    simp [promoted]
  · rename_i kept
    rw [classified]
    simp [kept]

lemma certain_iff_agree {remote : RemoteEvidence} (known : broker.known = true) (whole : submitGap journal = []) :
    Certain journal broker remote ↔ Agree journal broker remote :=
  ⟨fun certain => certain.2.2, fun agree => ⟨known, submitGap_eq_nil.1 whole, agree⟩⟩

lemma Recorded.certain_agree {remote : RemoteEvidence} (recorded : Recorded journal broker remote) :
    Certain journal broker remote ↔ Agree journal broker remote :=
  certain_iff_agree recorded.2.2.2.2.1 recorded.2.2.1

lemma canReconcile_certain_iff {remote : RemoteEvidence} (can : canReconcile journal broker remote = true) :
    Certain journal broker remote ↔ Agree journal broker remote := by
  simp only [canReconcile, Bool.and_eq_true, decide_eq_true_eq] at can
  obtain ⟨⟨⟨⟨⟨⟨⟨known, -⟩, whole⟩, -⟩, -⟩, -⟩, -⟩, -⟩ := can
  exact certain_iff_agree known whole

lemma reproduceTerminalPackage_conclusive {package : TerminalPackage}
    (built : reproduceTerminalPackage P journal broker remote = .ok package) :
    package.conclusive = (classifyInterrupt P journal broker remote).conclusive := by
  obtain ⟨digest, -, built⟩ := bind_eq_ok.1 built
  obtain ⟨packageDigest, -, built⟩ := bind_eq_ok.1 built
  cases built
  rfl

/-! ## Repeated writes -/

/-- How remote evidence stands to a journal: whether it disagrees, and whether it is incomplete. -/
def standing (journal : JournalRecord) (remote : Option RemoteEvidence) : Bool × Bool :=
  (disagrees journal (remote.getD .absent),
    !disagrees journal (remote.getD .absent) && incomplete journal (remote.getD .absent))

lemma classifyInterrupt_congr {remote' : Option RemoteEvidence}
    (same : standing journal remote = standing journal remote') :
    classifyInterrupt P journal broker remote = classifyInterrupt P journal broker remote' := by
  obtain ⟨disagree, partly⟩ := Prod.ext_iff.1 same
  simp only [standing] at disagree partly
  rw [disagree] at partly
  simp only [classifyInterrupt, disagree]
  cases disagreed : disagrees journal (remote'.getD .absent) with
  | true => rfl
  | false =>
    rw [disagreed, Bool.not_false, Bool.true_and, Bool.true_and] at partly
    rw [partly]

lemma reproduceTerminalPackage_congr {remote' : Option RemoteEvidence}
    (same : standing journal remote = standing journal remote') :
    reproduceTerminalPackage P journal broker remote = reproduceTerminalPackage P journal broker remote' := by
  simp only [reproduceTerminalPackage, classifyInterrupt_congr same]

lemma writeTerminalOnce_same {first : TerminalPackage}
    {stored : Option TerminalPackage} (kept : stored = none ∨ stored = some first)
    (fresh : reproduceTerminalPackage P journal broker remote = .ok first) :
    writeTerminalOnce P stored journal broker remote = .ok (first, stored.isNone) := by
  rw [writeTerminalOnce, fresh]
  obtain rfl | rfl := kept
  · rfl
  · exact if_pos rfl

/-- The acknowledgement is written down before the first package is returned, and the remote evidence of a later write
stands to the journal as that of the first. -/
def Steady (s : Progress) : Act → Prop
  | .acknowledge => s.returned = [] ∨ s.journal.objectStoreAcked = true
  | .write remote _ => ∀ first ∈ s.returned.head?, standing s.journal remote = standing s.journal first.remote
  | _ => True

/-- Nothing is stored that was not returned, and what was returned is the package of the journal. -/
inductive Settled (P : Python) (broker : BrokerTruth) (s : Progress) : Prop
  | unreturned (order : s.journal.statusWritten.isSome = true → s.journal.packageWritten = true)
      (returned : s.returned = []) (stored : s.stored = none)
  | returned (first : Written) (later : List Written) (package : s.journal.packageWritten = true)
      (status : s.journal.statusWritten.isSome = true) (returned : s.returned = first :: later)
      (fresh : reproduceTerminalPackage P s.journal broker first.remote = .ok first.package)
      (stored : s.stored = none ∨ s.stored = some first.package)
      (same : ∀ w ∈ later, w.package = first.package)

lemma Settled.write {s t : Progress} {kept : Bool} (settled : Settled P broker s)
    (steady : Steady s (.write remote kept)) (step : progress P broker s (.write remote kept) = some t) :
    Settled P broker t := by
  simp only [progress, ite_none_right_eq_some] at step
  obtain ⟨status, step⟩ := step
  cases settled with
  | unreturned order returned stored =>
    rw [stored] at step
    cases fresh : reproduceTerminalPackage P s.journal broker remote with
    | error e =>
      simp only [writeTerminalOnce, fresh] at step
      cases step
      exact .unreturned order returned stored
    | ok package =>
      rw [writeTerminalOnce_same (.inl rfl) fresh] at step
      cases step
      refine .returned ⟨remote, package, true⟩ [] (order status) status ?_ fresh ?_ (by simp)
      · rw [returned]
        rfl
      · cases kept with
        | false => exact .inl rfl
        | true => exact .inr rfl
  | returned first later package _ returned fresh stored same =>
    have standing := steady first (by rw [returned]; rfl)
    rw [← reproduceTerminalPackage_congr standing] at fresh
    rw [writeTerminalOnce_same stored fresh] at step
    cases step
    refine .returned first (later ++ [⟨remote, first.package, s.stored.isNone⟩]) package status ?_ ?_ ?_ ?_
    · rw [returned]
      rfl
    · rw [← reproduceTerminalPackage_congr standing]
      exact fresh
    · dsimp only
      split
      · exact .inr rfl
      · exact stored
    · intro w mem
      obtain old | new := mem_append.1 mem
      · exact same w old
      · rw [mem_singleton.1 new]

lemma Settled.step {s t : Progress} {act : Act} (settled : Settled P broker s) (steady : Steady s act)
    (step : progress P broker s act = some t) : Settled P broker t := by
  cases act with
  | write remote kept => exact settled.write steady step
  | crash => cases step; exact settled
  | intend leg =>
    obtain ⟨open_, step⟩ := ite_none_left_eq_some.1 step
    cases settled with
    | unreturned order returned stored => cases step; exact .unreturned order returned stored
    | returned first later package => exact absurd package open_
  | persist leg =>
    obtain ⟨⟨open_, -⟩, step⟩ := ite_none_right_eq_some.1 step
    cases settled with
    | unreturned order returned stored => cases step; exact .unreturned order returned stored
    | returned first later package => simp [package] at open_
  | writePackage digest =>
    obtain ⟨open_, step⟩ := ite_none_left_eq_some.1 step
    cases settled with
    | unreturned order returned stored => cases step; exact .unreturned (fun _ => rfl) returned stored
    | returned first later package => exact absurd package open_
  | writeStatus written =>
    obtain ⟨⟨package, unwritten⟩, step⟩ := ite_none_right_eq_some.1 step
    cases settled with
    | unreturned order returned stored => cases step; exact .unreturned (fun _ => package) returned stored
    | returned first later _ status => simp [unwritten] at status
  | acknowledge =>
    obtain ⟨_, step⟩ := ite_none_right_eq_some.1 step
    cases settled with
    | unreturned order returned stored => cases step; exact .unreturned order returned stored
    | returned first later package status returned fresh stored same =>
      obtain none | acked := steady
      · simp [none] at returned
      · -- an acknowledgement that is repeated writes what the journal says already
        have unchanged : { s.journal with objectStoreAcked := true } = s.journal := by rw [← acked]
        rw [unchanged] at step
        cases step
        exact .returned first later package status returned fresh stored same

lemma Settled.same {s : Progress} (settled : Settled P broker s) {first w : Written}
    (head : s.returned.head? = some first) (mem : w ∈ s.returned) : w.package = first.package := by
  cases settled with
  | unreturned _ returned => simp [returned] at mem
  | returned first' later _ _ returned _ _ same =>
    rw [returned] at head mem
    cases head
    obtain rfl | old := mem_cons.1 mem
    · rfl
    · exact same w old

/-- What is reported as conclusive is certain, exactly where the sources that are not compared agree; and a steady run
returns its first package from every write. -/
theorem certainty_iff (P : Python) (broker : BrokerTruth) :
    (∀ journal remote, ((classifyInterrupt P journal broker remote).conclusive = true →
          Certain journal broker (remote.getD .absent) ↔
        Recorded journal broker (remote.getD .absent) → Agree journal broker (remote.getD .absent)) ∧
      ((reconcileAfterRestart P journal broker remote).conclusive = true →
          Certain journal broker (remote.getD .absent) ↔
        Recorded journal broker (remote.getD .absent) ∨ canReconcile journal broker (remote.getD .absent) = true →
          Agree journal broker (remote.getD .absent)) ∧
      ∀ package, reproduceTerminalPackage P journal broker remote = .ok package →
        (package.conclusive = true → Certain journal broker (remote.getD .absent) ↔
          Recorded journal broker (remote.getD .absent) → Agree journal broker (remote.getD .absent))) ∧
    ∀ runId accountId acts s, (driver P broker).run (.start runId accountId) acts = some s →
      (driver P broker).Meets Steady (.start runId accountId) acts →
      ∀ first ∈ s.returned.head?, ∀ w ∈ s.returned, w.package = first.package := by
  constructor
  · intro journal remote
    have classified : (classifyInterrupt P journal broker remote).conclusive = true →
        Certain journal broker (remote.getD .absent) ↔
        Recorded journal broker (remote.getD .absent) → Agree journal broker (remote.getD .absent) := by
      rw [classifyInterrupt_conclusive]
      exact forall_congr' fun recorded => recorded.certain_agree
    refine ⟨classified, ?_, ?_⟩
    · rw [reconcileAfterRestart_conclusive]
      apply forall_congr'
      intro reported
      obtain recorded | can := reported
      · exact recorded.certain_agree
      · exact canReconcile_certain_iff can
    · intro package built
      rw [reproduceTerminalPackage_conclusive built]
      exact classified
  · intro runId accountId acts s run steady first head w mem
    have start : Settled P broker (.start runId accountId) := .unreturned (fun written => by cases written) rfl rfl
    have settled : Settled P broker s := Machine.run_invariant (M := driver P broker) Settled.step start steady run
    exact settled.same head mem

/-! ## Runs -/

def cpython : Python := ⟨Sha256.hexdigest, fun s => Text.of "'" ++ s ++ Text.of "'"⟩

def acknowledged : List Act :=
  [.intend (Text.of "leg"), .persist (Text.of "leg"), .writePackage none, .writeStatus .terminal, .acknowledge]

def mirror : RemoteEvidence := { present := true }

theorem certainty_iff_acknowledged :
    Certain ⟨Text.of "run", 1, [Text.of "leg"], [Text.of "leg"], true, some .terminal, true, none⟩
        ⟨true, [Text.of "leg"]⟩ mirror ∧ ∃ s, (driver cpython ⟨true, [Text.of "leg"]⟩).run (.start (Text.of "run") 1)
          (acknowledged ++ [.write (some mirror) false, .crash, .write (some mirror) false]) = some s ∧
        s.returned.length = 2 ∧ ∀ first ∈ s.returned.head?, ∀ w ∈ s.returned, w.package = first.package := by
  constructor
  · refine ((certainty_iff cpython _).1 _ (some mirror)).1.2 (fun _ => ⟨fun id => Iff.rfl, fun _ _ eq => ?_⟩) rfl
    cases eq
  · refine Machine.exists_run rfl fun s run => ⟨?_, fun first head w mem => ?_⟩
    · exact Machine.observe (f := fun s => s.returned.length) run rfl
    · refine (certainty_iff cpython _).2 _ _ _ s run ?_ first head w mem
      refine ⟨trivial, trivial, trivial, trivial, .inl rfl, ?_, trivial, ?_, trivial⟩
      · intro first none
        cases none
      · intro first some
        cases some
        rfl

/-- A broker that holds another order than the persisted leg, under a terminal status, is reported as certain; and an
acknowledgement after the first package turns the second write into recovery-required. -/
theorem false_certainty :
    ((classifyInterrupt cpython ⟨Text.of "run", 1, [Text.of "leg"], [Text.of "leg"], true, some .terminal, false, none⟩
        ⟨true, [Text.of "other"]⟩ none).conclusive = true ∧
      ¬ Certain ⟨Text.of "run", 1, [Text.of "leg"], [Text.of "leg"], true, some .terminal, false, none⟩
        ⟨true, [Text.of "other"]⟩ .absent) ∧
    ((driver cpython ⟨true, []⟩).run (.start (Text.of "r") 1) [.writePackage none, .writeStatus .terminal,
        .write (some mirror) true, .acknowledge, .write (some mirror) true]).map
        (fun s => s.returned.map fun w => w.package.status) = some [.terminal, .recoveryRequired] := by
  refine ⟨⟨rfl, fun certain => ?_⟩, by decide +kernel⟩
  exact absurd ((certain.2.2.1 (Text.of "leg")).2 (mem_singleton_self _)) (by decide)

end Workbench.Phase0
