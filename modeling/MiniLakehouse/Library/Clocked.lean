import MiniLakehouse.Library.Checked
import MiniLakehouse.Library.Window

/-!
# Clocked machines

A machine takes in timed inputs and answers on clocks, of which each carries a label.  `replay`
runs it over a whole stream; a pump feeds it batch by batch and answers the clocks that a
cutoff has passed.  An answer sees no input beyond its clock (`replay_causal`), a pump answers
as the replay does whatever its schedule (`pump_replay`), and two machines in a row can be
replayed one after the other (`replay_andThen`).
-/

namespace MiniLakehouse

/-- A machine with states `S`, inputs `I`, clocks `T` labelled by `L`, and answers `A`. -/
structure Clocked (ε S I L A T : Type) where
  apply : S → I → Except ε S
  decide : S → T → L → Except ε (S × A)

namespace Clocked

variable {ε S S' I L A A' T : Type} [LinearOrder T]

section

variable (M : Clocked ε S I L A T) (arrival : I → T)

/-- Take in the inputs that have arrived by an instant. -/
def applyUntil (upTo : T) : S → List I → Except ε (S × List I)
  | s, [] => .ok (s, [])
  | s, x :: xs =>
      if arrival x ≤ upTo then M.apply s x >>= fun s => applyUntil upTo s xs
      else .ok (s, x :: xs)

/-- The answers on the clocks, each once all that has arrived by it has been taken in. -/
def replay : S → List I → List (T × L) → Except ε (List A)
  | _, _, [] => .ok []
  | s, xs, clock :: clocks => do
      let (s, xs) ← M.applyUntil arrival clock.1 s xs
      let (s, answer) ← M.decide s clock.1 clock.2
      let answers ← replay s xs clocks
      return answer :: answers

end

/-- The next input, if there is one, arrives after an instant. -/
def Beyond (arrival : I → T) (upTo : T) (xs : List I) : Prop :=
  ∀ x ∈ xs.head?, upTo < arrival x

variable {M : Clocked ε S I L A T} {arrival : I → T} {s : S} {xs ys zs : List I}

theorem Beyond.mono {upTo upTo' : T} (h : Beyond arrival upTo xs) (hle : upTo' ≤ upTo) :
    Beyond arrival upTo' xs :=
  fun x hx => hle.trans_lt (h x hx)

theorem Beyond.of_forall {upTo : T} (h : ∀ x ∈ xs, upTo < arrival x) : Beyond arrival upTo xs :=
  fun x hx => h x (List.mem_of_mem_head? hx)

theorem beyond_dropWhile (arrival : I → T) (upTo : T) (xs : List I) :
    Beyond arrival upTo (xs.dropWhile (arrival · ≤ upTo)) := by
  intro x hx
  have hnot := List.head?_dropWhile_not (arrival · ≤ upTo) xs
  rw [Option.mem_def.mp hx] at hnot
  simpa using hnot

/-! ## Taking in -/

/-- What arrives after the instant stays where it is. -/
theorem applyUntil_append {upTo : T} (h : Beyond arrival upTo ys) :
    M.applyUntil arrival upTo s (xs ++ ys) =
      M.applyUntil arrival upTo s xs >>= fun taken => .ok (taken.1, taken.2 ++ ys) := by
  induction xs generalizing s with
  | nil =>
      cases ys with
      | nil => rfl
      | cons y ys =>
          have hlater : ¬arrival y ≤ upTo := not_le.mpr (h y rfl)
          simp [applyUntil, hlater]
  | cons x xs ih =>
      by_cases hx : arrival x ≤ upTo
      · simp only [List.cons_append, applyUntil, if_pos hx, bind_assoc, ih]
      · simp [applyUntil, hx]

/-- What has been taken in by one instant need not be looked at again. -/
theorem applyUntil_trans {upTo upTo' : T} (h : upTo ≤ upTo') :
    M.applyUntil arrival upTo' s xs =
      M.applyUntil arrival upTo s xs >>= fun taken =>
        M.applyUntil arrival upTo' taken.1 taken.2 := by
  induction xs generalizing s with
  | nil => rfl
  | cons x xs ih =>
      by_cases hx : arrival x ≤ upTo
      · simp only [applyUntil, if_pos hx, if_pos (hx.trans h), bind_assoc, ih]
      · simp [applyUntil, hx]

theorem applyUntil_rest {upTo : T} {taken : S × List I}
    (h : M.applyUntil arrival upTo s xs = .ok taken) :
    taken.2 = xs.dropWhile (arrival · ≤ upTo) := by
  induction xs generalizing s with
  | nil =>
      obtain rfl := Except.ok.inj h
      rfl
  | cons x xs ih =>
      by_cases hx : arrival x ≤ upTo
      · simp only [applyUntil, if_pos hx, bind_eq_ok] at h
        obtain ⟨next, -, hrest⟩ := h
        simp [hx, ih hrest]
      · simp only [applyUntil, if_neg hx, Except.ok.injEq] at h
        obtain rfl := h
        simp [hx]

/-- A machine that no input changes takes in whatever has arrived. -/
theorem applyUntil_idle {upTo : T} (h : ∀ s x, M.apply s x = .ok s) :
    M.applyUntil arrival upTo s xs = .ok (s, xs.dropWhile (arrival · ≤ upTo)) := by
  induction xs with
  | nil => rfl
  | cons x xs ih =>
      by_cases hx : arrival x ≤ upTo
      · simp [applyUntil, hx, h, ih]
      · simp [applyUntil, hx]

/-- The inputs of a machine that none changes do not matter. -/
theorem replay_idle (h : ∀ s x, M.apply s x = .ok s) (ys : List I) {clocks : List (T × L)} :
    M.replay arrival s xs clocks = M.replay arrival s ys clocks := by
  induction clocks generalizing s xs ys with
  | nil => rfl
  | cons clock clocks ih =>
      simp only [replay, applyUntil_idle h, ok_bind]
      cases hdecided : M.decide s clock.1 clock.2 with
      | error e => rfl
      | ok decided => rw [ok_bind, ok_bind, ih]

/-- The clocks with the labels of a run. -/
def marked (mark : T → L) (clocks : List T) : List (T × L) :=
  clocks.map fun clock => (clock, mark clock)

omit [LinearOrder T] in
theorem marked_fst (mark : T → L) (clocks : List T) :
    (marked mark clocks).map Prod.fst = clocks := by
  rw [marked, List.map_map]
  exact List.map_id clocks

/-! ## Causality -/

theorem replay_length {clocks : List (T × L)} {answers : List A}
    (h : M.replay arrival s xs clocks = .ok answers) : answers.length = clocks.length := by
  induction clocks generalizing s xs answers with
  | nil =>
      obtain rfl : [] = answers := Except.ok.inj h
      rfl
  | cons clock clocks ih =>
      simp only [replay, bind_eq_ok, pure_eq_ok] at h
      obtain ⟨taken, -, decided, -, rest, hrest, rfl⟩ := h
      simp [ih hrest]

/-- What every decision answers holds of all answers. -/
theorem replay_forall {P : T → L → A → Prop} {clocks : List (T × L)} {answers : List A}
    (hdecide : ∀ s s' clock label answer, M.decide s clock label = .ok (s', answer) →
      P clock label answer)
    (h : M.replay arrival s xs clocks = .ok answers) :
    List.Forall₂ (fun clock answer => P clock.1 clock.2 answer) clocks answers := by
  induction clocks generalizing s xs answers with
  | nil =>
      obtain rfl : [] = answers := Except.ok.inj h
      exact .nil
  | cons clock clocks ih =>
      simp only [replay, bind_eq_ok, pure_eq_ok] at h
      obtain ⟨taken, -, decided, hdecided, rest, hrest, rfl⟩ := h
      exact .cons (hdecide _ _ _ _ _ hdecided) (ih hrest)

/-- **No look-ahead.**  The answers on clocks up to an instant do not depend on what arrives
after it, nor on the clocks that follow. -/
theorem replay_causal {upTo : T} {clocks after after' : List (T × L)} {answers answers' : List A}
    (hclocks : ∀ clock ∈ clocks, clock.1 ≤ upTo)
    (hys : Beyond arrival upTo ys) (hzs : Beyond arrival upTo zs)
    (h : M.replay arrival s (xs ++ ys) (clocks ++ after) = .ok answers)
    (h' : M.replay arrival s (xs ++ zs) (clocks ++ after') = .ok answers') :
    answers.take clocks.length = answers'.take clocks.length := by
  induction clocks generalizing s xs answers answers' with
  | nil => rfl
  | cons clock clocks ih =>
      have hclock := hclocks clock List.mem_cons_self
      simp only [List.cons_append, replay, applyUntil_append (hys.mono hclock),
        applyUntil_append (hzs.mono hclock), bind_eq_ok, pure_eq_ok, Except.ok.injEq] at h h'
      obtain ⟨_, ⟨taken, htaken, rfl⟩, decided, hdecided, rest, hrest, rfl⟩ := h
      obtain ⟨_, ⟨taken', htaken', rfl⟩, decided', hdecided', rest', hrest', rfl⟩ := h'
      obtain rfl := Except.ok.inj (htaken.symm.trans htaken')
      obtain rfl := Except.ok.inj (hdecided.symm.trans hdecided')
      have htail := ih (fun clock hmem => hclocks clock (List.mem_cons_of_mem _ hmem)) hrest hrest'
      simp [htail]

/-- Streams in order that agree up to an instant, and clocks that are labelled alike up to it,
have the same answers up to it. -/
theorem replay_alike {upTo : T} {mark mark' : T → L} {clocks : List T} {answers answers' : List A}
    (hxs : xs.Pairwise fun a b => arrival a ≤ arrival b)
    (hys : ys.Pairwise fun a b => arrival a ≤ arrival b)
    (halike : xs.filter (arrival · ≤ upTo) = ys.filter (arrival · ≤ upTo))
    (hclocks : clocks.Pairwise (· < ·)) (hmark : ∀ clock ≤ upTo, mark clock = mark' clock)
    (h : M.replay arrival s xs (marked mark clocks) = .ok answers)
    (h' : M.replay arrival s ys (marked mark' clocks) = .ok answers') :
    answers.take (clocks.filter (· ≤ upTo)).length =
      answers'.take (clocks.filter (· ≤ upTo)).length := by
  have htaken : clocks.takeWhile (· ≤ upTo) = clocks.filter (· ≤ upTo) :=
    @takeWhile_eq_filter T T _ id upTo clocks (hclocks.imp le_of_lt)
  have hsplit := List.takeWhile_append_dropWhile (p := (· ≤ upTo)) (l := clocks)
  have hbefore : ∀ clock ∈ clocks.takeWhile (· ≤ upTo), clock ≤ upTo := by
    intro clock hclock
    simpa using List.mem_takeWhile_imp hclock
  have hsame : (clocks.takeWhile (· ≤ upTo)).map (fun clock => (clock, mark clock)) =
      (clocks.takeWhile (· ≤ upTo)).map fun clock => (clock, mark' clock) := by
    apply List.map_congr_left
    intro clock hclock
    rw [hmark clock (hbefore clock hclock)]
  have hinputs : xs.takeWhile (arrival · ≤ upTo) = ys.takeWhile (arrival · ≤ upTo) := by
    rw [takeWhile_eq_filter hxs, takeWhile_eq_filter hys, halike]
  rw [← List.takeWhile_append_dropWhile (p := (arrival · ≤ upTo)) (l := xs), ← hsplit, marked,
    List.map_append] at h
  rw [← List.takeWhile_append_dropWhile (p := (arrival · ≤ upTo)) (l := ys), ← hsplit, marked,
    List.map_append, ← hinputs, ← hsame] at h'
  have hlength : (clocks.filter (· ≤ upTo)).length = ((clocks.takeWhile (· ≤ upTo)).map
      fun clock => (clock, mark clock)).length := by
    rw [List.length_map, htaken]
  rw [hlength]
  refine replay_causal (fun clock hclock => ?_) (beyond_dropWhile arrival upTo xs)
    (beyond_dropWhile arrival upTo ys) h h'
  obtain ⟨found, hfound, rfl⟩ := List.mem_map.mp hclock
  exact hbefore found hfound

/-- Of what is on the clocks of its answers, the answers up to an instant have what is up to
the instant. -/
theorem filter_answered {β : Type} {upTo : T} {mark : T → L} {clocks : List T} {answers : List A}
    {f : A → List β} {key : β → T} (hclocks : clocks.Pairwise (· < ·))
    (h : List.Forall₂ (fun clock answer => ∀ x ∈ f answer, key x = Prod.fst clock)
      (marked mark clocks) answers) :
    (answers.flatMap f).filter (key · ≤ upTo) =
      (answers.take (clocks.filter (· ≤ upTo)).length).flatMap f := by
  induction clocks generalizing answers with
  | nil =>
      obtain rfl : answers = [] := by simpa [marked] using h
      rfl
  | cons clock clocks ih =>
      obtain ⟨answer, rest, hanswer, hrest, rfl⟩ := List.forall₂_cons_left_iff.mp h
      obtain ⟨hafter, hlater⟩ := List.pairwise_cons.mp hclocks
      rw [List.flatMap_cons, List.filter_append]
      by_cases hclock : clock ≤ upTo
      · have hall : (f answer).filter (key · ≤ upTo) = f answer := by
          rw [List.filter_eq_self]
          intro x hx
          simpa [hanswer x hx] using hclock
        rw [hall, ih hlater hrest, List.filter_cons_of_pos (by simpa using hclock)]
        simp
      · have hnone : (f answer).filter (key · ≤ upTo) = [] := by
          rw [List.filter_eq_nil_iff]
          intro x hx
          simpa [hanswer x hx] using hclock
        have hempty : clocks.filter (· ≤ upTo) = [] := by
          rw [List.filter_eq_nil_iff]
          intro later hmem
          simpa using (not_le.mp hclock).trans (hafter later hmem)
        rw [hnone, ih hlater hrest, List.filter_cons_of_neg (by simpa using hclock), hempty]
        rfl

/-! ## Pumps -/

/-- What a pump has taken in and answered so far. -/
structure Pump (S I A T : Type) where
  state : S
  pending : List I
  clocks : List T
  answers : List A

/-- What happens to a pump: inputs are handed over, or a cutoff passes, with the labels that
the clocks have then. -/
inductive PumpEvent (I L T : Type) where
  | ingest (inputs : List I)
  | advance (label : T → L) (cutoff : T)

namespace PumpEvent

def inputs : PumpEvent I L T → List I
  | .ingest inputs => inputs
  | .advance _ _ => []

/-- All that is handed over. -/
def ingested (events : List (PumpEvent I L T)) : List I := events.flatMap inputs

/-- No input is handed over once a cutoff has passed its arrival. -/
def Punctual (arrival : I → T) : List (PumpEvent I L T) → Prop
  | [] => True
  | .ingest _ :: events => Punctual arrival events
  | .advance _ cutoff :: events =>
      (∀ x ∈ ingested events, cutoff < arrival x) ∧ Punctual arrival events

end PumpEvent

variable (M arrival)

/-- Answer the clocks up to a cutoff, then take in what has arrived by it. -/
def drive (label : T → L) (cutoff : T) : List T → S → List I → List A →
    Except ε (Pump S I A T)
  | [], s, _, answers => .ok ⟨s, [], [], answers⟩
  | clock :: clocks, s, xs, answers =>
      if clock ≤ cutoff then do
        let (s, xs) ← M.applyUntil arrival clock s xs
        let (s, answer) ← M.decide s clock (label clock)
        drive label cutoff clocks s xs (answers ++ [answer])
      else do
        let (s, xs) ← M.applyUntil arrival cutoff s xs
        return ⟨s, xs, clock :: clocks, answers⟩

/-- One event of a pump.  Once every clock is answered nothing is taken in any more. -/
def pump (p : Pump S I A T) : PumpEvent I L T → Except ε (Pump S I A T)
  | .ingest inputs =>
      .ok (if p.clocks = [] then p else { p with pending := p.pending ++ inputs })
  | .advance label cutoff => M.drive arrival label cutoff p.clocks p.state p.pending p.answers

/-- The labels that a run reads are the ones that `mark` gives. -/
def Reads (mark : T → L) : Pump S I A T → List (PumpEvent I L T) → Prop
  | _, [] => True
  | p, .ingest inputs :: events =>
      ∀ p', M.pump arrival p (.ingest inputs) = .ok p' → Reads mark p' events
  | p, .advance label cutoff :: events =>
      (∀ clock ∈ p.clocks.takeWhile (· ≤ cutoff), label clock = mark clock) ∧
        ∀ p', M.pump arrival p (.advance label cutoff) = .ok p' → Reads mark p' events

variable {M arrival}

/-- The replay of what a pump has yet to do, after what it has answered. -/
def outlook (M : Clocked ε S I L A T) (arrival : I → T) (mark : T → L) (p : Pump S I A T)
    (later : List I) : Except ε (List A) := do
  let answers ← M.replay arrival p.state (p.pending ++ later) (marked mark p.clocks)
  return p.answers ++ answers

theorem drive_outlook {label mark : T → L} {cutoff : T} {clocks : List T} {answers : List A}
    {later : List I} {p : Pump S I A T} (hlater : ∀ x ∈ later, cutoff < arrival x)
    (hlabel : ∀ clock ∈ clocks.takeWhile (· ≤ cutoff), label clock = mark clock)
    (h : M.drive arrival label cutoff clocks s xs answers = .ok p) :
    M.outlook arrival mark ⟨s, xs, clocks, answers⟩ later = M.outlook arrival mark p later := by
  have hbeyond : Beyond arrival cutoff later := .of_forall hlater
  induction clocks generalizing s xs answers with
  | nil =>
      obtain rfl := Except.ok.inj h
      simp [outlook, marked, replay]
  | cons clock clocks ih =>
      unfold drive at h
      by_cases hclock : clock ≤ cutoff
      · rw [if_pos hclock] at h
        simp only [bind_eq_ok] at h
        obtain ⟨taken, htaken, decided, hdecided, hrest⟩ := h
        rw [List.takeWhile_cons_of_pos (by simpa using hclock)] at hlabel
        have htail := ih (fun clock hmem => hlabel clock (List.mem_cons_of_mem _ hmem)) hrest
        rw [← htail]
        simp only [outlook, marked, List.map_cons, replay, applyUntil_append (hbeyond.mono hclock),
          htaken, ok_bind, ← hlabel clock List.mem_cons_self, hdecided, bind_assoc,
          pure_bind, List.append_assoc, List.singleton_append]
      · rw [if_neg hclock] at h
        simp only [bind_eq_ok, pure_eq_ok] at h
        obtain ⟨taken, htaken, rfl⟩ := h
        simp only [outlook, marked, List.map_cons, replay]
        rw [applyUntil_trans (not_le.mp hclock).le, applyUntil_append hbeyond, htaken]
        rfl

/-- One event of a pump leaves its outlook as it is. -/
theorem pump_outlook {mark : T → L} {event : PumpEvent I L T}
    {events : List (PumpEvent I L T)} {p p' : Pump S I A T}
    (hpunctual : PumpEvent.Punctual arrival (event :: events))
    (hreads : M.Reads arrival mark p (event :: events)) (h : M.pump arrival p event = .ok p') :
    M.outlook arrival mark p (PumpEvent.ingested (event :: events)) =
      M.outlook arrival mark p' (PumpEvent.ingested events) := by
  cases event with
  | ingest inputs =>
      obtain rfl := Except.ok.inj h
      by_cases hclocks : p.clocks = []
      · simp [outlook, marked, hclocks, replay]
      · simp [outlook, hclocks, PumpEvent.ingested, PumpEvent.inputs]
  | advance label cutoff =>
      exact drive_outlook hpunctual.1 hreads.1 h

/-- **A pump answers as the replay does.**  Whatever the batches and the cutoffs, if no input
is handed over too late and every clock is answered in the end, the answers are those of one
replay of all inputs. -/
theorem pump_replay {mark : T → L} {events : List (PumpEvent I L T)} {p p' : Pump S I A T}
    (hpunctual : PumpEvent.Punctual arrival events) (hreads : M.Reads arrival mark p events)
    (hrun : events.foldlM (M.pump arrival) p = .ok p') (hdone : p'.clocks = []) :
    M.outlook arrival mark p (PumpEvent.ingested events) = .ok p'.answers := by
  induction events generalizing p with
  | nil =>
      obtain rfl : p = p' := by simpa using hrun
      simp [outlook, hdone, marked, replay]
  | cons event events ih =>
      rw [List.foldlM_cons, bind_eq_ok] at hrun
      obtain ⟨next, hnext, hrest⟩ := hrun
      have hpunctual' : PumpEvent.Punctual arrival events := by
        cases event with
        | ingest inputs => exact hpunctual
        | advance label cutoff => exact hpunctual.2
      have hreads' : M.Reads arrival mark next events := by
        cases event with
        | ingest inputs => exact hreads next hnext
        | advance label cutoff => exact hreads.2 next hnext
      rw [pump_outlook hpunctual hreads hnext]
      exact ih hpunctual' hreads' hrest

/-! ## Machines in a row -/

/-- Two machines over the same inputs, of which the second is asked with the first's answer. -/
def andThen (M : Clocked ε S I L A T) (N : Clocked ε S' I A A' T) :
    Clocked ε (S × S') I L (A × A') T where
  apply := fun s x => do
    let first ← M.apply s.1 x
    let second ← N.apply s.2 x
    return (first, second)
  decide := fun s clock label => do
    let (first, answer) ← M.decide s.1 clock label
    let (second, answer') ← N.decide s.2 clock answer
    return ((first, second), (answer, answer'))

/-- The clocks, labelled with what has been answered on them. -/
def relabel (clocks : List (T × L)) (answers : List A) : List (T × A) :=
  List.zipWith (fun clock answer => (clock.1, answer)) clocks answers

omit [LinearOrder T] in
theorem relabel_eq (clocks : List (T × L)) (answers : List A) :
    relabel clocks answers = (clocks.map Prod.fst).zip answers := by
  rw [relabel, List.zip, List.zipWith_map_left]

omit [LinearOrder T] in
theorem relabel_fst {clocks : List (T × L)} {answers : List A}
    (h : answers.length = clocks.length) :
    (relabel clocks answers).map Prod.fst = clocks.map Prod.fst := by
  rw [relabel_eq, List.map_fst_zip (by rw [List.length_map, h])]

omit [LinearOrder T] in
theorem relabel_snd {clocks : List (T × L)} {answers : List A}
    (h : answers.length = clocks.length) : (relabel clocks answers).map Prod.snd = answers := by
  rw [relabel_eq, List.map_snd_zip (by rw [List.length_map, h])]

omit [LinearOrder T] in
theorem relabel_length {clocks : List (T × L)} {answers : List A}
    (h : answers.length = clocks.length) : (relabel clocks answers).length = clocks.length := by
  rw [← List.length_map Prod.snd, relabel_snd h, h]

variable {N : Clocked ε S' I A A' T} {s' : S'}

theorem applyUntil_andThen {upTo : T} {taken : (S × S') × List I} :
    (M.andThen N).applyUntil arrival upTo (s, s') xs = .ok taken ↔
      M.applyUntil arrival upTo s xs = .ok (taken.1.1, taken.2) ∧
        N.applyUntil arrival upTo s' xs = .ok (taken.1.2, taken.2) := by
  induction xs generalizing s s' with
  | nil =>
      obtain ⟨⟨t, t'⟩, rest⟩ := taken
      simp only [applyUntil, Except.ok.injEq, Prod.mk.injEq]
      tauto
  | cons x xs ih =>
      by_cases hx : arrival x ≤ upTo
      · simp only [applyUntil, if_pos hx, andThen, bind_eq_ok, pure_eq_ok]
        constructor
        · intro h
          obtain ⟨_, ⟨first, hfirst, second, hsecond, rfl⟩, hrest⟩ := h
          obtain ⟨hleft, hright⟩ := ih.mp hrest
          exact ⟨⟨first, hfirst, hleft⟩, second, hsecond, hright⟩
        · intro h
          obtain ⟨⟨first, hfirst, hleft⟩, second, hsecond, hright⟩ := h
          exact ⟨_, ⟨first, hfirst, second, hsecond, rfl⟩, ih.mpr ⟨hleft, hright⟩⟩
      · obtain ⟨⟨t, t'⟩, rest⟩ := taken
        simp only [applyUntil, if_neg hx, Except.ok.injEq, Prod.mk.injEq]
        tauto

/-- A second machine that no input changes is left as it is. -/
theorem applyUntil_andThen_idle {upTo : T} (h : ∀ s x, N.apply s x = .ok s) :
    (M.andThen N).applyUntil arrival upTo (s, s') xs =
      M.applyUntil arrival upTo s xs >>= fun taken => .ok ((taken.1, s'), taken.2) := by
  induction xs generalizing s with
  | nil => rfl
  | cons x xs ih =>
      have hone : (M.andThen N).apply (s, s') x = M.apply s x >>= fun next => .ok (next, s') := by
        simp only [andThen, h, ok_bind]
        rfl
      by_cases hx : arrival x ≤ upTo
      · simp only [applyUntil, if_pos hx, hone, bind_assoc, ok_bind]
        exact bind_congr fun next => ih
      · simp only [applyUntil, if_neg hx, ok_bind]

/-- **Stage by stage.**  Two machines in a row answer what the second does when it is replayed
with the answers of a replay of the first. -/
theorem replay_andThen {clocks : List (T × L)} {answers : List (A × A')} :
    (M.andThen N).replay arrival (s, s') xs clocks = .ok answers ↔
      ∃ first second, M.replay arrival s xs clocks = .ok first ∧
        N.replay arrival s' xs (relabel clocks first) = .ok second ∧
        answers = first.zip second := by
  induction clocks generalizing s s' xs answers with
  | nil => simp [replay, relabel, eq_comm]
  | cons clock clocks ih =>
      constructor
      · intro h
        simp only [replay, bind_eq_ok, pure_eq_ok, applyUntil_andThen] at h
        obtain ⟨⟨⟨t, t'⟩, rest⟩, ⟨hleft, hright⟩, _, hdecided, later, hlater, rfl⟩ := h
        simp only [andThen, bind_eq_ok, pure_eq_ok] at hdecided
        obtain ⟨one, hone, two, htwo, rfl⟩ := hdecided
        obtain ⟨first, second, hfirst, hsecond, rfl⟩ := ih.mp hlater
        refine ⟨one.2 :: first, two.2 :: second, ?_, ?_, rfl⟩
        · simp [replay, hleft, hone, hfirst]
        · have hclocks : relabel (clock :: clocks) (one.2 :: first) =
              (clock.1, one.2) :: relabel clocks first := rfl
          simp [hclocks, replay, hright, htwo, hsecond]
      · intro h
        obtain ⟨first, second, hfirst, hsecond, rfl⟩ := h
        simp only [replay, bind_eq_ok, pure_eq_ok] at hfirst
        obtain ⟨⟨t, rest⟩, hleft, one, hone, first, hrest, rfl⟩ := hfirst
        have hclocks : relabel (clock :: clocks) (one.2 :: first) =
            (clock.1, one.2) :: relabel clocks first := rfl
        rw [hclocks] at hsecond
        simp only [replay, bind_eq_ok, pure_eq_ok] at hsecond
        obtain ⟨⟨t', rest'⟩, hright, two, htwo, second, hrest', rfl⟩ := hsecond
        obtain rfl : rest' = rest := (applyUntil_rest hright).trans (applyUntil_rest hleft).symm
        have hboth : (M.andThen N).applyUntil arrival clock.1 (s, s') xs = .ok ((t, t'), rest') :=
          applyUntil_andThen.mpr ⟨hleft, hright⟩
        have hlater := ih.mpr ⟨first, second, hrest, hrest', rfl⟩
        have hdecided : (M.andThen N).decide (t, t') clock.1 clock.2 =
            .ok ((one.1, two.1), (one.2, two.2)) := by
          simp only [andThen, bind_eq_ok, pure_eq_ok]
          exact ⟨one, hone, two, htwo, rfl⟩
        simp [replay, hboth, hdecided, hlater]

end Clocked

end MiniLakehouse
