import MiniLakehouse.Execution.Ledger
import MiniLakehouse.Execution.Lifecycle

/-!
# Ledger exchanges

Every transition of the resource ledger exchanges some reservations for others
and moves one symbol's available quantity and the available cash by given
amounts.  `Exchange` says so once; each transition has one inversion lemma that
names its guards and its exchange, and every sum over the ledger follows from
`Exchange.weight`.
-/

namespace MiniLakehouse

variable {D : Type}

namespace PaperReservation

theorem symbol_pattern (item : PaperReservation D) : isSymbolName item.symbol := by
  have h := item.valid
  simp only [PaperReservationFields.checks, allHold_cons] at h
  exact h.1

theorem reservedCash_nonneg (item : PaperReservation D) : 0 ≤ item.reservedCashVnd := by
  have h := item.valid
  simp only [PaperReservationFields.checks, allHold_cons] at h
  simpa using h.2.1

theorem open_iff (item : PaperReservation D) (hstatus : item.status = .open) :
    item.exitIntentSha256 = none ∧ item.reservedCashVnd = 0 ∧
      item.entryFilledQuantity ≠ 0 ∧
      item.reservedExitQuantity = item.entryFilledQuantity := by
  have h := item.valid
  simp only [PaperReservationFields.checks, allHold_cons] at h
  have hopen := h.2.2.2.2.2.1
  simpa [hstatus, and_assoc] using hopen

theorem exitPending_iff (item : PaperReservation D) (hstatus : item.status = .exitPending) :
    item.exitIntentSha256.isSome ∧ item.reservedCashVnd = 0 ∧
      item.entryFilledQuantity ≠ 0 ∧
      item.reservedExitQuantity = item.entryFilledQuantity := by
  have h := item.valid
  simp only [PaperReservationFields.checks, allHold_cons] at h
  have hpending := h.2.2.2.2.2.2.1
  simpa [hstatus, and_assoc] using hpending

theorem average_present (item : PaperReservation D) :
    item.entryFilledQuantity = 0 ↔ item.entryAverageFillPrice = none := by
  have h := item.valid
  simp only [PaperReservationFields.checks, allHold_cons] at h
  have heq := h.2.2.2.1
  cases haverage : item.entryAverageFillPrice <;> simp_all

end PaperReservation

variable [Hashing D]

namespace PaperResourceLedger

theorem cash_nonneg (ledger : PaperResourceLedger D) : 0 ≤ ledger.availableCashVnd := by
  have h := ledger.valid
  simp only [PaperResourceLedgerFields.checks, allHold_cons] at h
  simpa using h.1

theorem symbols_ascending (ledger : PaperResourceLedger D) :
    (ledger.positions.map (·.symbol)).Pairwise (· < ·) := by
  have h := ledger.valid
  simp only [PaperResourceLedgerFields.checks, allHold_cons] at h
  simpa using h.2.1

theorem reservations_ascending (ledger : PaperResourceLedger D) :
    (ledger.reservations.map (·.entryIntentSha256)).Pairwise (· < ·) := by
  have h := ledger.valid
  simp only [PaperResourceLedgerFields.checks, allHold_cons] at h
  simpa using h.2.2.1

theorem reservations_nodup (ledger : PaperResourceLedger D) :
    (ledger.reservations.map (·.entryIntentSha256)).Nodup :=
  nodup_of_ascending ledger.reservations_ascending

theorem reservation_symbol (ledger : PaperResourceLedger D) :
    ∀ item ∈ ledger.reservations, item.symbol ∈ ledger.positions.map (·.symbol) := by
  have h := ledger.valid
  simp only [PaperResourceLedgerFields.checks, allHold_cons] at h
  simpa using h.2.2.2.1

/-- A symbol's available exit quantity, zero where it has no position. -/
def availableQuantity (ledger : PaperResourceLedger D) (symbol : String) : Nat :=
  ((ledger.positions.find? (·.symbol == symbol)).map (·.availableExitQuantity)).getD 0

/-- The exit quantity reserved for a symbol. -/
def reservedQuantity (ledger : PaperResourceLedger D) (symbol : String) : Nat :=
  ((ledger.reservations.filter (·.symbol == symbol)).map (·.reservedExitQuantity)).sum

/-- The cash reserved by all reservations. -/
def reservedCash (ledger : PaperResourceLedger D) : Rat :=
  (ledger.reservations.map (·.reservedCashVnd)).sum

end PaperResourceLedger

/-- One position of `movePositions`. -/
def PaperResourcePosition.moved (symbol : String) (delta : Int)
    (item : PaperResourcePosition) : PaperResourcePosition :=
  { item with availableExitQuantity :=
      (if item.symbol = symbol then item.availableExitQuantity + delta
        else item.availableExitQuantity : Int).toNat }

theorem movePositions_eq_ok {ledger : PaperResourceLedger D} {symbol : String}
    {delta : Int} {values : List PaperResourcePosition} :
    movePositions ledger symbol delta = .ok values ↔
      (∀ item ∈ ledger.positions, item.symbol = symbol →
        0 ≤ item.availableExitQuantity + delta) ∧
      ledger.positions.map (PaperResourcePosition.moved symbol delta) = values ∧
      ∃ item ∈ ledger.positions, item.symbol = symbol := by
  have hguard : ∀ (item : PaperResourcePosition) (value : PaperResourcePosition),
      (let quantity : Int :=
          if item.symbol = symbol then item.availableExitQuantity + delta
          else item.availableExitQuantity
        if quantity < 0 then
          (.error (Raised.valueError "paper reservation exceeds available settled inventory") :
            Except Raised PaperResourcePosition)
        else .ok { item with availableExitQuantity := quantity.toNat }) = .ok value ↔
      (item.symbol = symbol → 0 ≤ item.availableExitQuantity + delta) ∧
        item.moved symbol delta = value := by
    intro item value
    by_cases hs : item.symbol = symbol
    · by_cases hneg : (item.availableExitQuantity : Int) + delta < 0
      · simp [hs, hneg]
      · simp [hs, hneg, PaperResourcePosition.moved, not_lt.mp hneg]
    · have hnonneg : ¬(item.availableExitQuantity : Int) < 0 := by omega
      simp [hs, hnonneg, PaperResourcePosition.moved]
  simp only [movePositions, bind_eq_ok, mapM_guarded hguard, require_eq_ok, pure_eq_ok]
  constructor
  · rintro ⟨_, ⟨hpos, rfl⟩, _, hmem, rfl⟩
    exact ⟨hpos, rfl, hmem⟩
  · rintro ⟨hpos, rfl, hmem⟩
    exact ⟨_, ⟨hpos, rfl⟩, (), hmem, rfl⟩

/-- What a transition does to a ledger: it exchanges reservations, and moves
one symbol's available quantity and the available cash. -/
structure Exchange (before after : PaperResourceLedger D)
    (removed added : List (PaperReservation D)) (symbol : String) (released : Int)
    (cash : Rat) : Prop where
  tradeDate : after.tradeDate = before.tradeDate
  account : after.accountSnapshotSha256 = before.accountSnapshotSha256
  revision : after.revision = before.revision + 1
  cash : after.availableCashVnd = before.availableCashVnd + cash
  symbols : after.positions.map (·.symbol) = before.positions.map (·.symbol)
  available : ∀ other, (after.availableQuantity other : Int) =
    before.availableQuantity other + if other = symbol then released else 0
  reservations : ∃ kept, before.reservations.Perm (removed ++ kept) ∧
    after.reservations.Perm (added ++ kept)

namespace Exchange

variable {before after : PaperResourceLedger D} {removed added : List (PaperReservation D)}
  {symbol : String} {released : Int} {cash : Rat}

/-- A sum over the reservations changes by what is exchanged. -/
theorem weight {M : Type} [AddCommMonoid M] (h : Exchange before after removed added symbol
    released cash) (f : PaperReservation D → M) :
    (after.reservations.map f).sum + (removed.map f).sum =
      (before.reservations.map f).sum + (added.map f).sum := by
  obtain ⟨kept, hbefore, hafter⟩ := h.reservations
  rw [(hbefore.map f).sum_eq, (hafter.map f).sum_eq]
  simp only [List.map_append, List.sum_append]
  rw [add_right_comm, add_comm (removed.map f).sum, add_right_comm,
    add_comm (added.map f).sum, add_right_comm]

theorem mem_after (h : Exchange before after removed added symbol released cash)
    {item : PaperReservation D} (hitem : item ∈ after.reservations) :
    item ∈ added ∨ item ∈ before.reservations := by
  obtain ⟨kept, hbefore, hafter⟩ := h.reservations
  rcases List.mem_append.mp (hafter.mem_iff.mp hitem) with hadded | hkept
  · exact .inl hadded
  · exact .inr (hbefore.mem_iff.mpr (List.mem_append_right _ hkept))

end Exchange

/-- Moving the positions moves exactly one symbol's available quantity. -/
theorem availableQuantity_moved {before after : PaperResourceLedger D} {symbol : String}
    {delta : Int} {values : List PaperResourcePosition}
    (h : movePositions before symbol delta = .ok values)
    (hafter : after.positions = values) (other : String) :
    (after.availableQuantity other : Int) =
      before.availableQuantity other + if other = symbol then delta else 0 := by
  obtain ⟨hpos, hvalues, item, hitem, hsymbol⟩ := movePositions_eq_ok.mp h
  have hfind : after.positions.find? (·.symbol == other) =
      (before.positions.find? (·.symbol == other)).map (.moved symbol delta) := by
    rw [hafter, ← hvalues, List.find?_map]
    rfl
  simp only [PaperResourceLedger.availableQuantity, hfind, Option.map_map]
  cases hcase : before.positions.find? (·.symbol == other) with
  | none =>
      have hne : other ≠ symbol := by
        rintro rfl
        simpa [hsymbol] using List.find?_eq_none.mp hcase item hitem
      simp [hne]
  | some found =>
      have hmem := List.mem_of_find?_eq_some hcase
      have hother : found.symbol = other := by simpa using List.find?_some hcase
      have hfound := hpos found hmem
      by_cases hs : other = symbol
      · have hle : 0 ≤ (found.availableExitQuantity : Int) + delta :=
          hfound (hother.trans hs)
        simp [PaperResourcePosition.moved, hother, hs, hle]
      · simp [PaperResourcePosition.moved, hother, hs]

theorem moved_symbols {ledger : PaperResourceLedger D} {symbol : String} {delta : Int}
    {values : List PaperResourcePosition}
    (h : movePositions ledger symbol delta = .ok values) :
    values.map (·.symbol) = ledger.positions.map (·.symbol) := by
  obtain ⟨-, rfl, -⟩ := movePositions_eq_ok.mp h
  rw [List.map_map]
  rfl

theorem PaperResourceLedger.modelValidate_ok {fields : PaperResourceLedgerFields D}
    {ledger : PaperResourceLedger D} (h : modelValidate fields = .ok ledger) :
    ledger.toPaperResourceLedgerFields = fields := by
  obtain ⟨_, rfl⟩ := validated_eq_ok.mp h
  rfl

omit [Hashing D] in
theorem PaperReservation.modelValidate_ok {fields : PaperReservationFields D}
    {item : PaperReservation D} (h : modelValidate fields = .ok item) :
    item.toPaperReservationFields = fields := by
  obtain ⟨_, rfl⟩ := validated_eq_ok.mp h
  rfl

/-- The reservations without one cycle, and that cycle. -/
theorem PaperResourceLedger.perm_without (ledger : PaperResourceLedger D)
    {item : PaperReservation D} (hitem : item ∈ ledger.reservations) :
    ledger.reservations.Perm ([item] ++
      ledger.reservations.filter (·.entryIntentSha256 != item.entryIntentSha256)) :=
  perm_cons_without (fun item : PaperReservation D => item.entryIntentSha256)
    ledger.reservations_nodup hitem

/-- The cycle retained with what is outstanding, if anything is. -/
theorem retainOutstanding_ok {remaining reservations : List (PaperReservation D)}
    {outstanding : Nat} {fields : PaperReservationFields D}
    (h : retainOutstanding remaining outstanding fields = .ok reservations) :
    ∃ added : List (PaperReservation D), reservations.Perm (added ++ remaining) ∧
      ((outstanding = 0 ∧ added = []) ∨ (outstanding ≠ 0 ∧ ∃ item,
        added = [item] ∧ item.toPaperReservationFields = fields)) := by
  unfold retainOutstanding at h
  split at h
  · next hzero =>
      cases h
      exact ⟨[], .refl _, .inl ⟨hzero, rfl⟩⟩
  · next hne =>
      simp only [bind_eq_ok, pure_eq_ok] at h
      obtain ⟨item, hitem, rfl⟩ := h
      refine ⟨[item], ?_, .inr ⟨hne, item, rfl, PaperReservation.modelValidate_ok hitem⟩⟩
      exact (sortOn_perm _ _).trans List.perm_append_comm

/-! ## The four transitions -/

/-- **Reserving an entry** takes its cash and its exit inventory. -/
theorem reservePaperEntry_ok {ledger after : PaperResourceLedger D}
    {intent : PaperOrderIntent D} (h : reservePaperEntry ledger intent = .ok after) :
    intent.leg = .entry ∧ intent.tradeDate = ledger.tradeDate ∧
      intent.resourceLedgerSha256 = ledger.sha256 ∧
      (∀ item ∈ ledger.reservations, item.entryIntentSha256 ≠ intent.sha256) ∧
      ∃ item : PaperReservation D, item.toPaperReservationFields = {
          entryIntentSha256 := intent.sha256
          exitIntentSha256 := none
          symbol := intent.symbol
          status := .entryPending
          reservedCashVnd := intent.reservedCashVnd
          reservedExitQuantity := intent.reservedExitQuantity
          entryFilledQuantity := 0
          entryAverageFillPrice := none } ∧
        Exchange ledger after [] [item] intent.symbol (-intent.reservedExitQuantity)
          (-intent.reservedCashVnd) := by
  simp only [reservePaperEntry, bind_eq_ok, require_eq_ok] at h
  obtain ⟨-, ⟨hleg, hdate, hledger, hfresh, -⟩, item, hitem, positions, hpositions,
    hafter⟩ := h
  have hfields := PaperResourceLedger.modelValidate_ok hafter
  refine ⟨hleg, hdate, hledger, hfresh, item, PaperReservation.modelValidate_ok hitem, ?_⟩
  exact {
    tradeDate := by rw [hfields]
    account := by rw [hfields]
    revision := by rw [hfields]
    cash := by rw [hfields]; exact sub_eq_add_neg _ _
    symbols := by rw [hfields]; exact moved_symbols hpositions
    available := availableQuantity_moved hpositions (by rw [hfields])
    reservations := by
      refine ⟨ledger.reservations, .refl _, ?_⟩
      rw [hfields]
      exact (sortOn_perm _ _).trans List.perm_append_comm }

/-- **Settling an entry** releases what was not spent and not filled. -/
theorem settlePaperEntry_ok {ledger after : PaperResourceLedger D}
    {intent : PaperOrderIntent D} {state : PaperOrderState D} {costs : CostPolicy}
    (h : settlePaperEntry ledger intent state costs = .ok after) :
    intent.leg = .entry ∧ state.status.isTerminal ∧
      ∃ item ∈ ledger.reservations, item.entryIntentSha256 = intent.sha256 ∧
        item.status = .entryPending ∧ spentCash costs state ≤ item.reservedCashVnd ∧
        ∃ added : List (PaperReservation D),
          ((state.cumulativeFilledQuantity = 0 ∧ added = []) ∨
            (state.cumulativeFilledQuantity ≠ 0 ∧ ∃ kept : PaperReservation D,
              added = [kept] ∧ kept.toPaperReservationFields = {
                entryIntentSha256 := intent.sha256
                exitIntentSha256 := none
                symbol := intent.symbol
                status := .open
                reservedCashVnd := 0
                reservedExitQuantity := state.cumulativeFilledQuantity
                entryFilledQuantity := state.cumulativeFilledQuantity
                entryAverageFillPrice := state.averageFillPrice })) ∧
          Exchange ledger after [item] added intent.symbol
            (item.reservedExitQuantity - state.cumulativeFilledQuantity)
            (item.reservedCashVnd - spentCash costs state) := by
  simp only [settlePaperEntry, bind_eq_ok, require_eq_ok] at h
  obtain ⟨-, ⟨hleg, -, hterminal, -⟩, h⟩ := h
  split at h
  · next item hmatches =>
      have hmem : item ∈ [item] := List.mem_singleton_self item
      rw [← hmatches, List.mem_filter, Bool.and_eq_true, beq_iff_eq, beq_iff_eq] at hmem
      obtain ⟨hitem, hkey, hstatus⟩ := hmem
      simp only [bind_eq_ok, require_eq_ok] at h
      obtain ⟨-, hspent, reservations, hreservations, positions, hpositions, hafter⟩ := h
      have hfields := PaperResourceLedger.modelValidate_ok hafter
      obtain ⟨added, hperm, hadded⟩ := retainOutstanding_ok hreservations
      refine ⟨hleg, hterminal, item, hitem, hkey, hstatus, hspent, added, hadded, ?_⟩
      exact {
        tradeDate := by rw [hfields]
        account := by rw [hfields]
        revision := by rw [hfields]
        cash := by rw [hfields]; exact add_sub_assoc _ _ _
        symbols := by rw [hfields]; exact moved_symbols hpositions
        available := availableQuantity_moved hpositions (by rw [hfields])
        reservations := by
          refine ⟨_, ledger.perm_without hitem, ?_⟩
          rw [hfields, hkey]
          exact hperm }
  · simp at h

/-- **Reserving an exit** binds the whole of one open cycle. -/
theorem reservePaperExit_ok {ledger after : PaperResourceLedger D}
    {intent : PaperOrderIntent D} (h : reservePaperExit ledger intent = .ok after) :
    intent.leg = .exit ∧ intent.resourceLedgerSha256 = ledger.sha256 ∧
      ∃ item ∈ ledger.reservations,
        intent.parentIntentSha256 = some item.entryIntentSha256 ∧ item.status = .open ∧
        item.reservedExitQuantity = intent.quantity ∧
        ∃ bound : PaperReservation D, bound.toPaperReservationFields = {
            item.toPaperReservationFields with
            exitIntentSha256 := some intent.sha256
            status := .exitPending } ∧
          Exchange ledger after [item] [bound] intent.symbol 0 0 := by
  simp only [reservePaperExit, bind_eq_ok, require_eq_ok] at h
  obtain ⟨-, ⟨hleg, hledger⟩, h⟩ := h
  split at h
  · next item hmatches =>
      have hmem : item ∈ [item] := List.mem_singleton_self item
      rw [← hmatches, List.mem_filter, Bool.and_eq_true, beq_iff_eq, beq_iff_eq] at hmem
      obtain ⟨hitem, hparent, hstatus⟩ := hmem
      simp only [bind_eq_ok, require_eq_ok] at h
      obtain ⟨-, hquantity, bound, hbound, hafter⟩ := h
      have hfields := PaperResourceLedger.modelValidate_ok hafter
      refine ⟨hleg, hledger, item, hitem, hparent.symm, hstatus, hquantity, bound,
        PaperReservation.modelValidate_ok hbound, ?_⟩
      exact {
        tradeDate := by rw [hfields]
        account := by rw [hfields]
        revision := by rw [hfields]
        cash := by rw [hfields]; exact (add_zero _).symm
        symbols := by rw [hfields]
        available := by intro other; simp [PaperResourceLedger.availableQuantity, hfields]
        reservations := by
          refine ⟨_, ledger.perm_without hitem, ?_⟩
          rw [hfields]
          exact map_replace_perm (fun item : PaperReservation D => item.entryIntentSha256)
            ledger.reservations_nodup hitem }
  · simp at h

/-- **Settling an exit** removes what was sold and keeps the rest open. -/
theorem settlePaperExit_ok {ledger after : PaperResourceLedger D}
    {intent : PaperOrderIntent D} {state : PaperOrderState D} {costs : CostPolicy}
    (h : settlePaperExit ledger intent state costs = .ok after) :
    intent.leg = .exit ∧ state.status.isTerminal ∧
      ∃ item ∈ ledger.reservations, item.exitIntentSha256 = some intent.sha256 ∧
        item.status = .exitPending ∧
        state.cumulativeFilledQuantity ≤ item.reservedExitQuantity ∧
        ∃ added : List (PaperReservation D),
          ((item.reservedExitQuantity - state.cumulativeFilledQuantity = 0 ∧ added = []) ∨
            (item.reservedExitQuantity - state.cumulativeFilledQuantity ≠ 0 ∧
              ∃ kept : PaperReservation D, added = [kept] ∧ kept.toPaperReservationFields = {
                item.toPaperReservationFields with
                exitIntentSha256 := none
                status := .open
                reservedCashVnd := 0
                reservedExitQuantity :=
                  item.reservedExitQuantity - state.cumulativeFilledQuantity
                entryFilledQuantity :=
                  item.reservedExitQuantity - state.cumulativeFilledQuantity })) ∧
          Exchange ledger after [item] added intent.symbol 0 0 := by
  simp only [settlePaperExit, bind_eq_ok, require_eq_ok] at h
  obtain ⟨-, ⟨hleg, -, hterminal, -⟩, h⟩ := h
  split at h
  · next item hmatches =>
      have hmem : item ∈ [item] := List.mem_singleton_self item
      rw [← hmatches, List.mem_filter, Bool.and_eq_true, beq_iff_eq, beq_iff_eq] at hmem
      obtain ⟨hitem, hexit, hstatus⟩ := hmem
      simp only [bind_eq_ok, require_eq_ok] at h
      obtain ⟨-, hsold, realized, -, reservations, hreservations, hafter⟩ := h
      have hfields := PaperResourceLedger.modelValidate_ok hafter
      obtain ⟨added, hperm, hadded⟩ := retainOutstanding_ok hreservations
      refine ⟨hleg, hterminal, item, hitem, hexit, hstatus, hsold, added, hadded, ?_⟩
      exact {
        tradeDate := by rw [hfields]
        account := by rw [hfields]
        revision := by rw [hfields]
        cash := by rw [hfields]; exact (add_zero _).symm
        symbols := by rw [hfields]
        available := by intro other; simp [PaperResourceLedger.availableQuantity, hfields]
        reservations := by
          refine ⟨_, ledger.perm_without hitem, ?_⟩
          rw [hfields]
          exact hperm }
  · simp at h

end MiniLakehouse
