import MiniLakehouse.Configuration.Trading
import MiniLakehouse.Market.State

/-!
# Bars

Every accepted trade enters exactly one bar.  `Covers` says that a bar holds
exactly the given trades, and `Recorded` ties a symbol's state to the trades
accepted and the bars finalized since market state was last reset.  One lemma
per kind of event and one for clock boundaries carry it; the run lemma follows
any interleaving of `apply` and `advance`.
-/

namespace MiniLakehouse

variable {intervalSeconds : Nat} {symbol : String}

/-! ## Bar intervals -/

theorem seconds_le {a b : Int} : seconds a ≤ seconds b ↔ a ≤ b := by
  simp only [seconds]
  omega

/-- Intervals follow the clock. -/
theorem barStart_mono {a b : Instant} (h : a ≤ b) (intervalSeconds : Nat) :
    barStart a intervalSeconds ≤ barStart b intervalSeconds := by
  simp only [barStart, seconds_le]
  have hseconds : a.tdiv (seconds 1) ≤ b.tdiv (seconds 1) := Int.tdiv_le_tdiv (by decide) h
  have hquotient : a.tdiv (seconds 1) / intervalSeconds ≤
      b.tdiv (seconds 1) / intervalSeconds := by
    rcases Nat.eq_zero_or_pos intervalSeconds with rfl | hpos
    · simp
    · exact Int.ediv_le_ediv (Int.natCast_pos.mpr hpos) hseconds
  have ha := Int.mul_ediv_add_emod (a.tdiv (seconds 1)) intervalSeconds
  have hb := Int.mul_ediv_add_emod (b.tdiv (seconds 1)) intervalSeconds
  have hscaled := mul_le_mul_of_nonneg_left hquotient (Int.natCast_nonneg intervalSeconds)
  omega

/-- The end of an interval starts the next one. -/
theorem barStart_end (value : Instant) (intervalSeconds : Nat) :
    barStart (barStart value intervalSeconds + seconds intervalSeconds) intervalSeconds =
      barStart value intervalSeconds + seconds intervalSeconds := by
  have hmod := Int.mul_ediv_add_emod (value.tdiv (seconds 1)) intervalSeconds
  have hgrid : barStart value intervalSeconds + seconds intervalSeconds =
      intervalSeconds * (value.tdiv (seconds 1) / intervalSeconds + 1) * seconds 1 := by
    simp only [seconds, one_mul] at hmod
    simp only [barStart, seconds, one_mul]
    linear_combination -1000000 * hmod
  rw [hgrid]
  simp only [barStart, Int.mul_tdiv_cancel _ (show seconds 1 ≠ 0 by decide),
    Int.mul_emod_right, sub_zero]
  rfl

/-! ## One bar -/

/-- A bar holds exactly the given trades of its symbol and interval. -/
structure Covers (intervalSeconds : Nat) (symbol : String) (bar : OpenBar)
    (trades : List Trade) : Prop where
  symbol_eq : bar.symbol = symbol
  start_eq : ∀ trade ∈ trades, barStart trade.eventTime intervalSeconds = bar.start
  end_eq : bar.endAt = bar.start + seconds intervalSeconds
  openPrice : trades.head?.map (·.price) = some bar.openPrice
  high : (∀ trade ∈ trades, trade.price ≤ bar.highPrice) ∧
    ∃ trade ∈ trades, trade.price = bar.highPrice
  low : (∀ trade ∈ trades, bar.lowPrice ≤ trade.price) ∧
    ∃ trade ∈ trades, trade.price = bar.lowPrice
  closePrice : trades.getLast?.map (·.price) = some bar.closePrice
  volume : bar.volume = (trades.map (·.quantity)).sum
  value : bar.value = (trades.map fun trade => (trade.price * trade.quantity : Rat)).sum
  tradeCount : bar.tradeCount = trades.length
  buyVolume : bar.buyVolume = (trades.map (·.sideQuantity .buy)).sum
  sellVolume : bar.sellVolume = (trades.map (·.sideQuantity .sell)).sum

/-- A first trade opens its bar. -/
theorem Covers.fromTrade (trade : Trade) (intervalSeconds : Nat) :
    Covers intervalSeconds trade.symbol (.fromTrade trade intervalSeconds) [trade] := by
  constructor <;> simp [OpenBar.fromTrade]

theorem Covers.exists_mem {bar : OpenBar} {trades : List Trade}
    (h : Covers intervalSeconds symbol bar trades) : ∃ trade, trade ∈ trades := by
  obtain ⟨trade, htrade, -⟩ := h.high.2
  exact ⟨trade, htrade⟩

/-- A further trade of the interval is added. -/
theorem Covers.add {bar : OpenBar} {trades : List Trade} {trade : Trade}
    (h : Covers intervalSeconds symbol bar trades)
    (hstart : barStart trade.eventTime intervalSeconds = bar.start) :
    Covers intervalSeconds symbol (bar.add trade) (trades ++ [trade]) := by
  constructor
  case symbol_eq => exact h.symbol_eq
  case start_eq =>
    intro item hitem
    rcases List.mem_append.mp hitem with hitem | hitem
    · exact h.start_eq item hitem
    · rw [List.mem_singleton.mp hitem]
      exact hstart
  case end_eq => exact h.end_eq
  case openPrice =>
    obtain ⟨first, hfirst⟩ := h.exists_mem
    cases trades with
    | nil => simp at hfirst
    | cons head tail => simpa [OpenBar.add] using h.openPrice
  case high =>
    constructor
    · intro item hitem
      rcases List.mem_append.mp hitem with hitem | hitem
      · exact le_max_of_le_left (h.high.1 item hitem)
      · rw [List.mem_singleton.mp hitem]
        exact le_max_right _ _
    · obtain ⟨item, hitem, hprice⟩ := h.high.2
      rcases le_total bar.highPrice trade.price with hle | hle
      · exact ⟨trade, by simp, (max_eq_right hle).symm⟩
      · exact ⟨item, by simp [hitem], hprice.trans (max_eq_left hle).symm⟩
  case low =>
    constructor
    · intro item hitem
      rcases List.mem_append.mp hitem with hitem | hitem
      · exact min_le_of_left_le (h.low.1 item hitem)
      · rw [List.mem_singleton.mp hitem]
        exact min_le_right _ _
    · obtain ⟨item, hitem, hprice⟩ := h.low.2
      rcases le_total bar.lowPrice trade.price with hle | hle
      · exact ⟨item, by simp [hitem], hprice.trans (min_eq_left hle).symm⟩
      · exact ⟨trade, by simp, (min_eq_right hle).symm⟩
  case closePrice => simp [OpenBar.add]
  case volume => simp [OpenBar.add, h.volume]
  case value => simp [OpenBar.add, h.value]
  case tradeCount => simp [OpenBar.add, h.tradeCount]
  case buyVolume => simp [OpenBar.add, h.buyVolume]
  case sellVolume => simp [OpenBar.add, h.sellVolume]

/-- What a finalized bar was while it was open. -/
def Bar.opened (bar : Bar) : OpenBar where
  symbol := bar.symbol
  start := bar.start
  endAt := bar.endAt
  openPrice := bar.openPrice
  highPrice := bar.highPrice
  lowPrice := bar.lowPrice
  closePrice := bar.closePrice
  volume := bar.volume
  value := bar.value
  tradeCount := bar.tradeCount
  buyVolume := bar.buyVolume
  sellVolume := bar.sellVolume

/-- `value / volume`, rounded half up. -/
def Bar.Priced (bar : Bar) : Prop :=
  bar.vwap = quantizeHalfUp pricePlaces (bar.value / bar.volume)

@[simp] theorem OpenBar.close_opened (bar : OpenBar) (availableAt : Instant) :
    (bar.close availableAt).opened = bar := rfl

theorem OpenBar.close_priced (bar : OpenBar) (availableAt : Instant) :
    (bar.close availableAt).Priced := rfl

/-! ## The bars of one symbol -/

/-- A symbol's state after the trades accepted and the bars finalized since
market state was last reset. -/
structure Recorded (intervalSeconds : Nat) (symbol : String) (state : SymbolState)
    (trades : List Trade) (bars : List Bar) : Prop where
  /-- The trades split into the finalized bars' groups and the open bar's. -/
  grouped : ∃ (groups : List (List Trade)) (current : List Trade),
    groups.flatten ++ current = trades ∧
    List.Forall₂ (fun bar group => Covers intervalSeconds symbol bar.opened group) bars groups ∧
    (∀ bar ∈ state.openBar, Covers intervalSeconds symbol bar current) ∧
    (state.openBar = none → current = [])
  priced : ∀ bar ∈ bars, bar.Priced
  ascending : (bars.map Bar.start).Pairwise (· < ·)
  before : ∀ bar ∈ bars, ∀ current ∈ state.openBar, bar.start < current.start
  closed : ∀ bar ∈ bars, ∃ through ∈ state.closedThrough, bar.endAt ≤ through
  bounded : ∀ bar ∈ state.openBar, ∀ through ∈ state.closedThrough, through ≤ bar.endAt
  clock : ∀ trade ∈ trades, ∃ time ∈ state.lastTradeTime, trade.eventTime ≤ time
  volume : state.cumulativeVolume = trades.getLast?.map (·.cumulativeVolume)
  continuous : trades.IsChain fun previous current =>
    current.cumulativeVolume = previous.cumulativeVolume + current.quantity

namespace Recorded

/-- Nothing has been recorded after a reset. -/
theorem initial (intervalSeconds : Nat) (symbol : String) :
    Recorded intervalSeconds symbol .initial [] [] := by
  constructor
  case grouped => exact ⟨[], [], by simp [SymbolState.initial]⟩
  all_goals simp [SymbolState.initial]

variable {state : SymbolState} {trades : List Trade} {bars : List Bar}
  (h : Recorded intervalSeconds symbol state trades bars)

include h

/-- A finalized bar is of the symbol and ends a whole interval after its start. -/
theorem bar_span {bar : Bar} (hbar : bar ∈ bars) :
    bar.symbol = symbol ∧ bar.endAt = bar.start + seconds intervalSeconds := by
  obtain ⟨groups, current, -, hgroups, -⟩ := h.grouped
  obtain ⟨group, -, hgroup⟩ := exists_of_mem_forall₂ hgroups.flip hbar
  exact ⟨hgroup.symbol_eq, hgroup.end_eq⟩

/-- The open bar holds a trade that was accepted. -/
theorem open_span {bar : OpenBar} (hbar : bar ∈ state.openBar) :
    bar.symbol = symbol ∧ bar.endAt = bar.start + seconds intervalSeconds ∧
      ∃ trade ∈ trades, barStart trade.eventTime intervalSeconds = bar.start := by
  obtain ⟨groups, current, hflat, -, hcurrent, -⟩ := h.grouped
  have hcover := hcurrent bar hbar
  obtain ⟨trade, htrade⟩ := hcover.exists_mem
  refine ⟨hcover.symbol_eq, hcover.end_eq, trade, ?_, hcover.start_eq trade htrade⟩
  rw [← hflat]
  exact List.mem_append_right _ htrade

/-- **No trade precedes the open bar**: the branch of `_apply_trade` that would
drop one is out of reach. -/
theorem open_not_after {bar : OpenBar} (hbar : bar ∈ state.openBar) {trade : Trade}
    (htime : ¬state.lastTradeTime.any (trade.eventTime < ·) = true) :
    bar.start ≤ barStart trade.eventTime intervalSeconds := by
  obtain ⟨-, -, previous, hprevious, hstart⟩ := h.open_span hbar
  obtain ⟨time, htime', hle⟩ := h.clock previous hprevious
  rw [← hstart]
  apply barStart_mono
  have hnot : ¬trade.eventTime < time := by simpa [Option.mem_def.mp htime'] using htime
  exact hle.trans (not_lt.mp hnot)

/-- The end of the open bar starts an interval. -/
theorem open_end_start {bar : OpenBar} (hbar : bar ∈ state.openBar) :
    barStart bar.endAt intervalSeconds = bar.endAt := by
  obtain ⟨-, hend, trade, -, hstart⟩ := h.open_span hbar
  rw [hend, ← hstart]
  exact barStart_end trade.eventTime intervalSeconds

/-- Finalized bars end before the open one does. -/
theorem ends_before {bar : Bar} (hbar : bar ∈ bars) {current : OpenBar}
    (hcurrent : current ∈ state.openBar) : bar.endAt ≤ current.endAt := by
  have hstart := h.before bar hbar current hcurrent
  rw [(h.bar_span hbar).2, (h.open_span hcurrent).2.1]
  linarith

/-- A state that differs only in its quote and in a later trade clock. -/
theorem retimed {state' : SymbolState} (hopen : state'.openBar = state.openBar)
    (hclosed : state'.closedThrough = state.closedThrough)
    (hvolume : state'.cumulativeVolume = state.cumulativeVolume)
    (hclock : ∀ time ∈ state.lastTradeTime, ∃ later ∈ state'.lastTradeTime, time ≤ later) :
    Recorded intervalSeconds symbol state' trades bars := by
  constructor
  case grouped => rw [hopen]; exact h.grouped
  case priced => exact h.priced
  case ascending => exact h.ascending
  case before => rw [hopen]; exact h.before
  case closed => rw [hclosed]; exact h.closed
  case bounded => rw [hopen, hclosed]; exact h.bounded
  case clock =>
    intro trade htrade
    obtain ⟨time, htime, hle⟩ := h.clock trade htrade
    obtain ⟨later, hlater, hle'⟩ := hclock time htime
    exact ⟨later, hlater, hle.trans hle'⟩
  case volume => rw [hvolume]; exact h.volume
  case continuous => exact h.continuous

end Recorded

/-! ## One event -/

theorem SymbolState.volumeIssue_eq_none {previousVolume : Option Nat} {trade : Trade}
    (h : volumeIssue previousVolume trade = none) :
    ∀ previous ∈ previousVolume, trade.cumulativeVolume = previous + trade.quantity := by
  intro previous hprevious
  simp only [volumeIssue, Option.mem_def.mp hprevious] at h
  split_ifs at h with hless hsame hgap
  exact not_not.mp hgap

/-- The open bar a trade enters and the bars it finalizes. -/
inductive Entered (intervalSeconds : Nat) (state : SymbolState) (trade : Trade) :
    OpenBar → List Bar → Option Instant → Prop
  /-- The first trade of a bar. -/
  | first (h : state.openBar = none) :
      Entered intervalSeconds state trade (.fromTrade trade intervalSeconds) []
        state.closedThrough
  /-- A further trade of the open bar's interval. -/
  | further {bar : OpenBar} (h : bar ∈ state.openBar)
      (hstart : barStart trade.eventTime intervalSeconds = bar.start) :
      Entered intervalSeconds state trade (bar.add trade) [] state.closedThrough
  /-- A trade of a later interval finalizes the open bar. -/
  | next {bar : OpenBar} (h : bar ∈ state.openBar)
      (hstart : bar.start < barStart trade.eventTime intervalSeconds) :
      Entered intervalSeconds state trade (.fromTrade trade intervalSeconds)
        [bar.close trade.receivedAt] (some bar.endAt)

/-- **What a trade can do**: be refused, and leave the state alone, or enter a
bar of an interval that is not closed. -/
theorem Recorded.observeTrade_cases {state : SymbolState} {trades : List Trade}
    {bars : List Bar} (h : Recorded intervalSeconds symbol state trades bars) (trade : Trade) :
    (∃ issues, issues ≠ [] ∧
      state.observeTrade intervalSeconds trade = ⟨state, [], issues, []⟩) ∨
    ∃ bar finalized through, Entered intervalSeconds state trade bar finalized through ∧
      state.observeTrade intervalSeconds trade = ⟨{ state with
          latestTrade := some trade
          lastTradeTime := some trade.eventTime
          cumulativeVolume := some trade.cumulativeVolume
          openBar := some bar
          closedThrough := through }, finalized, [], []⟩ ∧
      (∀ time ∈ state.lastTradeTime, time ≤ trade.eventTime) ∧
      (∀ previous ∈ state.cumulativeVolume,
        trade.cumulativeVolume = previous + trade.quantity) ∧
      ∀ closed ∈ state.closedThrough,
        closed < barStart trade.eventTime intervalSeconds + seconds intervalSeconds := by
  unfold SymbolState.observeTrade
  by_cases htime : state.lastTradeTime.any (trade.eventTime < ·) = true
  · exact .inl ⟨[.tradeTimeRegression], by simp, by rw [if_pos htime]⟩
  rw [if_neg htime]
  by_cases hlate : state.closedThrough.any
      (barStart trade.eventTime intervalSeconds + seconds intervalSeconds ≤ ·) = true
  · refine .inl ⟨_ ++ [MarketIssue.lateTrade], ?_, by rw [if_pos hlate]⟩
    simp
  simp only [if_neg hlate]
  by_cases hvolume : (SymbolState.volumeIssue state.cumulativeVolume trade).toList ≠ []
  · exact .inl ⟨_, hvolume, by rw [if_pos hvolume]⟩
  rw [if_neg hvolume]
  have hclock : ∀ time ∈ state.lastTradeTime, time ≤ trade.eventTime := by
    intro time hmem
    simpa [Option.mem_def.mp hmem] using htime
  have hcontinues := SymbolState.volumeIssue_eq_none (by simpa using hvolume)
  have hopen : ∀ closed ∈ state.closedThrough,
      closed < barStart trade.eventTime intervalSeconds + seconds intervalSeconds := by
    intro closed hmem
    simpa [Option.mem_def.mp hmem] using hlate
  refine .inr ?_
  cases hbar : state.openBar with
  | none =>
      refine ⟨_, _, _, .first hbar, ?_, hclock, hcontinues, hopen⟩
      simp [SymbolState.applyTrade, hbar]
  | some bar =>
      have hnot := h.open_not_after hbar htime
      by_cases hsame : barStart trade.eventTime intervalSeconds = bar.start
      · refine ⟨_, _, _, .further hbar hsame, ?_, hclock, hcontinues, hopen⟩
        simp [SymbolState.applyTrade, hbar, hsame]
      · refine ⟨_, _, _, .next hbar (lt_of_le_of_ne hnot (Ne.symm hsame)), ?_, hclock,
          hcontinues, hopen⟩
        simp [SymbolState.applyTrade, hbar, hsame, not_lt.mpr hnot]

/-- The trades that continue a volume extend the chain. -/
theorem Recorded.continues {state : SymbolState} {trades : List Trade} {bars : List Bar}
    (h : Recorded intervalSeconds symbol state trades bars) {trade : Trade}
    (hvolume : ∀ previous ∈ state.cumulativeVolume,
      trade.cumulativeVolume = previous + trade.quantity) :
    (trades ++ [trade]).IsChain fun previous current =>
      current.cumulativeVolume = previous.cumulativeVolume + current.quantity := by
  rw [List.isChain_append]
  refine ⟨h.continuous, List.isChain_singleton _, ?_⟩
  intro last hlast current hcurrent
  obtain rfl : trade = current := by simpa using hcurrent
  apply hvolume
  rw [h.volume, Option.mem_def.mp hlast]
  rfl

/-- **A trade that enters a bar** is recorded in that bar and no other. -/
theorem Recorded.entered {state : SymbolState} {trades : List Trade} {bars : List Bar}
    (h : Recorded intervalSeconds symbol state trades bars) {trade : Trade}
    (hsymbol : trade.symbol = symbol) {bar : OpenBar} {finalized : List Bar}
    {through : Option Instant} (hentered : Entered intervalSeconds state trade bar finalized through)
    (htime : ∀ time ∈ state.lastTradeTime, time ≤ trade.eventTime)
    (hvolume : ∀ previous ∈ state.cumulativeVolume,
      trade.cumulativeVolume = previous + trade.quantity)
    (hopen : ∀ closed ∈ state.closedThrough,
      closed < barStart trade.eventTime intervalSeconds + seconds intervalSeconds) :
    Recorded intervalSeconds symbol
      { state with
        latestTrade := some trade, lastTradeTime := some trade.eventTime,
        cumulativeVolume := some trade.cumulativeVolume, openBar := some bar,
        closedThrough := through }
      (trades ++ [trade]) (bars ++ finalized) := by
  have hclock : ∀ item ∈ trades ++ [trade], ∃ time ∈ some trade.eventTime,
      item.eventTime ≤ time := by
    intro item hitem
    refine ⟨trade.eventTime, rfl, ?_⟩
    rcases List.mem_append.mp hitem with hitem | hitem
    · obtain ⟨time, hmem, hle⟩ := h.clock item hitem
      exact hle.trans (htime time hmem)
    · rw [List.mem_singleton.mp hitem]
  have hlast : some trade.cumulativeVolume =
      (trades ++ [trade]).getLast?.map (·.cumulativeVolume) := by simp
  have hcontinuous := h.continues hvolume
  have hfirst : Covers intervalSeconds symbol (.fromTrade trade intervalSeconds) [trade] := by
    rw [← hsymbol]
    exact Covers.fromTrade trade intervalSeconds
  obtain ⟨groups, current, hflat, hgroups, hcurrent, hnone⟩ := h.grouped
  cases hentered with
  | first hbar =>
      rw [List.append_nil]
      constructor
      case grouped =>
        refine ⟨groups, [trade], ?_, hgroups, ?_, by simp⟩
        · rw [← hflat, hnone hbar, List.append_nil]
        · rintro _ ⟨rfl⟩
          exact hfirst
      case priced => exact h.priced
      case ascending => exact h.ascending
      case before =>
        rintro closed hclosed _ ⟨rfl⟩
        obtain ⟨through, hthrough, hle⟩ := h.closed closed hclosed
        have hafter := hopen through hthrough
        rw [(h.bar_span hclosed).2] at hle
        simp only [OpenBar.fromTrade]
        linarith
      case closed => exact h.closed
      case bounded =>
        rintro _ ⟨rfl⟩ through hthrough
        exact (hopen through hthrough).le
      case clock => exact hclock
      case volume => exact hlast
      case continuous => exact hcontinuous
  | @further opened hbar hstart =>
      rw [List.append_nil]
      constructor
      case grouped =>
        refine ⟨groups, current ++ [trade], ?_, hgroups, ?_, by simp⟩
        · rw [← hflat, List.append_assoc]
        · rintro _ ⟨rfl⟩
          exact (hcurrent opened hbar).add hstart
      case priced => exact h.priced
      case ascending => exact h.ascending
      case before =>
        rintro closed hclosed _ ⟨rfl⟩
        exact h.before closed hclosed opened hbar
      case closed => exact h.closed
      case bounded =>
        rintro _ ⟨rfl⟩
        exact h.bounded opened hbar
      case clock => exact hclock
      case volume => exact hlast
      case continuous => exact hcontinuous
  | @next opened hbar hstart =>
      constructor
      case grouped =>
        refine ⟨groups ++ [current], [trade], ?_, ?_, ?_, by simp⟩
        · rw [← hflat, List.flatten_append, List.flatten_singleton]
        · exact List.rel_append hgroups (.cons (hcurrent opened hbar) .nil)
        · rintro _ ⟨rfl⟩
          exact hfirst
      case priced =>
        intro closed hclosed
        rcases List.mem_append.mp hclosed with hclosed | hclosed
        · exact h.priced closed hclosed
        · rw [List.mem_singleton.mp hclosed]
          exact opened.close_priced _
      case ascending =>
        rw [List.map_append, List.pairwise_append]
        refine ⟨h.ascending, List.pairwise_singleton _ _, ?_⟩
        intro start hmem start' hmem'
        obtain ⟨closed, hclosed, rfl⟩ := List.mem_map.mp hmem
        rw [List.map_singleton, List.mem_singleton] at hmem'
        rw [hmem']
        exact h.before closed hclosed opened hbar
      case before =>
        rintro closed hclosed _ ⟨rfl⟩
        rcases List.mem_append.mp hclosed with hclosed | hclosed
        · exact (h.before closed hclosed opened hbar).trans hstart
        · rw [List.mem_singleton.mp hclosed]
          exact hstart
      case closed =>
        intro closed hclosed
        refine ⟨opened.endAt, rfl, ?_⟩
        rcases List.mem_append.mp hclosed with hclosed | hclosed
        · exact h.ends_before hclosed hbar
        · rw [List.mem_singleton.mp hclosed]
          exact le_refl _
      case bounded =>
        rintro _ ⟨rfl⟩ _ ⟨rfl⟩
        rw [(h.open_span hbar).2.1]
        simp only [OpenBar.fromTrade]
        linarith
      case clock => exact hclock
      case volume => exact hlast
      case continuous => exact hcontinuous

/-- The trades an observation accepts. -/
def SymbolState.Observation.accepted (observed : SymbolState.Observation) (event : MarketEvent) :
    List Trade :=
  if observed.issues = [] then event.asTrade.toList else []

/-- The update of `apply` when a decoded event has been observed. -/
def SymbolState.Observation.update (observed : SymbolState.Observation) (event : MarketEvent)
    (issues : List MarketIssue) : MarketUpdate :=
  ⟨if observed.issues = [] then some event else none, observed.finalizedBars, issues⟩

/-- **One event** is recorded, and none of its issues goes unreported. -/
theorem Recorded.observe {state : SymbolState} {trades : List Trade} {bars : List Bar}
    (h : Recorded intervalSeconds symbol state trades bars) {event : MarketEvent}
    (hsymbol : event.symbol = symbol) :
    let observed := state.observe intervalSeconds event
    Recorded intervalSeconds symbol observed.state (trades ++ observed.accepted event)
        (bars ++ observed.finalizedBars) ∧
      observed.unreported = [] ∧
      ∀ trade ∈ observed.accepted event, ∀ closed ∈ state.closedThrough,
        closed < barStart trade.eventTime intervalSeconds + seconds intervalSeconds := by
  cases event with
  | quote value =>
      simp only [SymbolState.observe, SymbolState.observeQuote]
      split_ifs with htime
      · simpa [SymbolState.Observation.accepted] using h
      · have hquoted : Recorded intervalSeconds symbol
            { state with latestQuote := some value, lastQuoteTime := some value.eventTime }
            trades bars := h.retimed rfl rfl rfl fun time hmem => ⟨time, hmem, le_refl _⟩
        simpa [SymbolState.Observation.accepted, MarketEvent.asTrade] using hquoted
  | auction value =>
      simp only [SymbolState.observe, SymbolState.observeAuction]
      split_ifs with htime
      · simpa [SymbolState.Observation.accepted] using h
      · have hlater : ∀ time ∈ state.lastTradeTime, time ≤ value.eventTime := by
          intro time hmem
          simpa [Option.mem_def.mp hmem] using htime
        have hmoved : Recorded intervalSeconds symbol
            { state with lastTradeTime := some value.eventTime } trades bars :=
          h.retimed rfl rfl rfl fun time hmem => ⟨_, rfl, hlater time hmem⟩
        simpa [SymbolState.Observation.accepted, MarketEvent.asTrade] using hmoved
  | trade value =>
      simp only [SymbolState.observe]
      obtain ⟨issues, hissues, hrefused⟩ | ⟨bar, finalized, through, hentered, haccepted, htime,
        hvolume, hopen⟩ := h.observeTrade_cases value
      · simpa [hrefused, SymbolState.Observation.accepted, hissues] using h
      · have hrecorded := h.entered hsymbol hentered htime hvolume hopen
        simpa [haccepted, SymbolState.Observation.accepted, MarketEvent.asTrade] using
          ⟨hrecorded, hopen⟩

/-- **A clock boundary** finalizes the open bar of an interval that has ended. -/
theorem Recorded.advance {state : SymbolState} {trades : List Trade} {bars : List Bar}
    (h : Recorded intervalSeconds symbol state trades bars) (eventTime availableAt : Instant) :
    Recorded intervalSeconds symbol (state.advance intervalSeconds eventTime) trades
      (bars ++ (state.closing eventTime availableAt).toList) := by
  have hthrough : ∀ closed ∈ state.closedThrough, ∃ through ∈
      (state.advance intervalSeconds eventTime).closedThrough, closed ≤ through := by
    intro closed hclosed
    refine ⟨_, rfl, ?_⟩
    rw [Option.mem_def.mp hclosed]
    exact le_max_right _ _
  obtain ⟨groups, current, hflat, hgroups, hcurrent, hnone⟩ := h.grouped
  cases hbar : state.openBar with
  | none =>
      have hclosing : state.closing eventTime availableAt = none := by
        simp [SymbolState.closing, hbar]
      have hstill : (state.advance intervalSeconds eventTime).openBar = none := by
        simp [SymbolState.advance, hbar]
      rw [hclosing, Option.toList_none, List.append_nil]
      constructor
      case grouped => exact ⟨groups, current, hflat, hgroups, by simp [hstill], fun _ => hnone hbar⟩
      case priced => exact h.priced
      case ascending => exact h.ascending
      case before => simp [hstill]
      case closed =>
        intro closed hclosed
        obtain ⟨through, hmem, hle⟩ := h.closed closed hclosed
        obtain ⟨later, hlater, hle'⟩ := hthrough through hmem
        exact ⟨later, hlater, hle.trans hle'⟩
      case bounded => simp [hstill]
      case clock => exact h.clock
      case volume => exact h.volume
      case continuous => exact h.continuous
  | some bar =>
      have hmem : bar ∈ state.openBar := hbar
      by_cases hended : bar.endAt ≤ eventTime
      · have hclosing : state.closing eventTime availableAt = some (bar.close availableAt) := by
          simp [SymbolState.closing, hbar, hended]
        have hnoneLeft : (state.advance intervalSeconds eventTime).openBar = none := by
          simp [SymbolState.advance, hbar, hended]
        have hboundary : bar.endAt ≤ barStart eventTime intervalSeconds := by
          rw [← h.open_end_start hmem]
          exact barStart_mono hended intervalSeconds
        rw [hclosing, Option.toList_some]
        constructor
        case grouped =>
          refine ⟨groups ++ [current], [], ?_, ?_, by simp [hnoneLeft], by simp⟩
          · rw [← hflat, List.flatten_append, List.flatten_singleton, List.append_nil]
          · exact List.rel_append hgroups (.cons (hcurrent bar hmem) .nil)
        case priced =>
          intro closed hclosed
          rcases List.mem_append.mp hclosed with hclosed | hclosed
          · exact h.priced closed hclosed
          · rw [List.mem_singleton.mp hclosed]
            exact bar.close_priced _
        case ascending =>
          rw [List.map_append, List.pairwise_append]
          refine ⟨h.ascending, List.pairwise_singleton _ _, ?_⟩
          intro start hstart start' hstart'
          obtain ⟨closed, hclosed, rfl⟩ := List.mem_map.mp hstart
          rw [List.map_singleton, List.mem_singleton] at hstart'
          rw [hstart']
          exact h.before closed hclosed bar hmem
        case before => simp [hnoneLeft]
        case closed =>
          intro closed hclosed
          rcases List.mem_append.mp hclosed with hclosed | hclosed
          · obtain ⟨through, hold, hle⟩ := h.closed closed hclosed
            obtain ⟨later, hlater, hle'⟩ := hthrough through hold
            exact ⟨later, hlater, hle.trans hle'⟩
          · rw [List.mem_singleton.mp hclosed]
            refine ⟨_, rfl, hboundary.trans ?_⟩
            cases state.closedThrough with
            | none => exact le_refl _
            | some through => exact le_max_left _ _
        case bounded => simp [hnoneLeft]
        case clock => exact h.clock
        case volume => exact h.volume
        case continuous => exact h.continuous
      · have hclosing : state.closing eventTime availableAt = none := by
          simp [SymbolState.closing, hbar, not_le.mp hended]
        have hkept : (state.advance intervalSeconds eventTime).openBar = state.openBar := by
          simp [SymbolState.advance, hbar, not_le.mp hended]
        have hboundary : barStart eventTime intervalSeconds ≤ bar.endAt := by
          rw [← h.open_end_start hmem]
          exact barStart_mono (not_le.mp hended).le intervalSeconds
        rw [hclosing, Option.toList_none, List.append_nil]
        constructor
        case grouped => exact ⟨groups, current, hflat, hgroups, hkept ▸ hcurrent, hkept ▸ hnone⟩
        case priced => exact h.priced
        case ascending => exact h.ascending
        case before => rw [hkept]; exact h.before
        case closed =>
          intro closed hclosed
          obtain ⟨through, hold, hle⟩ := h.closed closed hclosed
          obtain ⟨later, hlater, hle'⟩ := hthrough through hold
          exact ⟨later, hlater, hle.trans hle'⟩
        case bounded =>
          rw [hkept]
          intro open' hopen' through hmem'
          obtain rfl : bar = open' := Option.some.inj (hbar.symm.trans hopen')
          have hbounded := h.bounded bar hmem
          obtain rfl := Option.some.inj hmem'
          cases hclosed : state.closedThrough with
          | none => exact hboundary
          | some closed => exact max_le hboundary (hbounded closed hclosed)
        case clock => exact h.clock
        case volume => exact h.volume
        case continuous => exact h.continuous

/-- The volume traded in a symbol's bars telescopes. -/
theorem quantity_telescopes {trades : List Trade} {first last : Trade}
    (h : trades.IsChain fun previous current =>
      current.cumulativeVolume = previous.cumulativeVolume + current.quantity)
    (hfirst : first ∈ trades.head?) (hlast : last ∈ trades.getLast?) :
    (trades.map (·.quantity)).sum + first.cumulativeVolume =
      last.cumulativeVolume + first.quantity := by
  induction trades generalizing first with
  | nil => simp at hfirst
  | cons trade rest ih =>
      obtain rfl : trade = first := by simpa using hfirst
      cases rest with
      | nil =>
          obtain rfl : trade = last := by simpa using hlast
          simp [Nat.add_comm]
      | cons next rest =>
          rw [List.isChain_cons_cons] at h
          have hnext : next ∈ (next :: rest).head? := rfl
          have htail := ih h.2 hnext (by simpa using hlast)
          simp only [List.map_cons, List.sum_cons] at htail ⊢
          omega

/-- A symbol's bars trade its accepted quantities. -/
theorem Recorded.volumes {state : SymbolState} {trades : List Trade} {bars : List Bar}
    (h : Recorded intervalSeconds symbol state trades bars) :
    (bars.map (·.volume)).sum + (state.openBar.elim 0 (·.volume)) =
      (trades.map (·.quantity)).sum := by
  obtain ⟨groups, current, hflat, hgroups, hcurrent, hnone⟩ := h.grouped
  have hclosed : (bars.map (·.volume)).sum = (groups.flatten.map (·.quantity)).sum := by
    clear hflat h
    induction hgroups with
    | nil => rfl
    | @cons bar group _ _ hhead _ ih =>
        have hvolume : bar.volume = (group.map (·.quantity)).sum := hhead.volume
        rw [List.map_cons, List.sum_cons, List.flatten_cons, List.map_append, List.sum_append, ih,
          hvolume]
  have hopen : state.openBar.elim 0 (·.volume) = (current.map (·.quantity)).sum := by
    cases hbar : state.openBar with
    | none => simp [hnone hbar]
    | some bar => exact (hcurrent bar hbar).volume
  rw [hclosed, hopen, ← hflat, List.map_append, List.sum_append]

/-! ## All symbols -/

/-- The events accepted and the bars finalized since market state was last reset. -/
structure MarketLog where
  accepted : List MarketEvent
  finalized : List Bar

namespace MarketLog

/-- The accepted trades of a symbol. -/
def tradesOf (log : MarketLog) (symbol : String) : List Trade :=
  (log.accepted.filterMap MarketEvent.asTrade).filter (·.symbol == symbol)

/-- The finalized bars of a symbol. -/
def barsOf (log : MarketLog) (symbol : String) : List Bar :=
  log.finalized.filter (·.symbol == symbol)

/-- The log once `apply` has returned or raised. -/
def applied (log : MarketLog) : Except Raised MarketUpdate → MarketLog
  | .ok update => ⟨log.accepted ++ update.event.toList, log.finalized ++ update.finalizedBars⟩
  | .error _ => log

/-- The log once a boundary has finalized bars. -/
def advanced (log : MarketLog) (bars : List Bar) : MarketLog :=
  ⟨log.accepted, log.finalized ++ bars⟩

@[simp] theorem tradesOf_advanced (log : MarketLog) (bars : List Bar) (symbol : String) :
    (log.advanced bars).tradesOf symbol = log.tradesOf symbol := rfl

end MarketLog

/-- Market state after the events and bars of the log. -/
structure MarketRecorded (configuration : TradingVersion) (state : MarketState)
    (log : MarketLog) : Prop where
  known : ∀ symbol found, state.symbols symbol = some found →
    Recorded configuration.market.barIntervalSeconds symbol found (log.tradesOf symbol)
      (log.barsOf symbol)
  unknown : ∀ symbol, state.symbols symbol = none →
    log.tradesOf symbol = [] ∧ log.barsOf symbol = []
  domain : ∀ symbol, (state.symbols symbol).isSome ↔ symbol ∈ configuration.market.symbols

variable {configuration : TradingVersion}

/-- Only the symbols' states matter. -/
theorem MarketRecorded.of_symbols {state state' : MarketState} {log : MarketLog}
    (h : MarketRecorded configuration state log) (hsame : state'.symbols = state.symbols) :
    MarketRecorded configuration state' log := by
  constructor
  case known => rw [hsame]; exact h.known
  case unknown => rw [hsame]; exact h.unknown
  case domain => rw [hsame]; exact h.domain

/-- Fresh market state has recorded nothing. -/
theorem MarketRecorded.fresh {state : MarketState}
    (hfresh : state.symbols = MarketState.freshSymbols configuration) :
    MarketRecorded configuration state ⟨[], []⟩ := by
  constructor
  case known =>
    intro symbol found hfound
    rw [hfresh, MarketState.freshSymbols] at hfound
    split at hfound
    · obtain rfl := Option.some.inj hfound
      exact Recorded.initial _ symbol
    · cases hfound
  case unknown => exact fun _ _ => ⟨rfl, rfl⟩
  case domain =>
    intro symbol
    rw [hfresh, MarketState.freshSymbols]
    split <;> simp_all

variable {D : Type}

@[simp] theorem MarketState.recordSequence_symbols (state : MarketState)
    (envelope : StreamEnvelope D) : (state.recordSequence envelope).symbols = state.symbols := by
  simp only [MarketState.recordSequence]
  split <;> rfl

@[simp] theorem MarketState.recordSequence_active (state : MarketState)
    (envelope : StreamEnvelope D) :
    (state.recordSequence envelope).activeStreamSessionId = state.activeStreamSessionId := by
  simp only [MarketState.recordSequence]
  split <;> rfl

section

variable [Hashing D] [Sdk]

/-- **What `apply` can do** to the symbols that the session's activation leaves:
nothing, or one observation of a decoded event. -/
theorem MarketState.apply_cases (configuration : TradingVersion) (state : MarketState)
    (envelope : StreamEnvelope D) :
    let active := state.activate configuration envelope.streamSessionId
    let applied := state.apply configuration envelope
    (applied.2.symbols = active.symbols ∧
      ((∃ issues, applied.1 = .ok ⟨none, [], issues⟩) ∨ ∃ raised, applied.1 = .error raised)) ∨
    ∃ event found issues, decodeEvent envelope configuration.market.quoteDepth
        configuration.market.timezone = .ok (some event) ∧
      active.symbols event.symbol = some found ∧
      let observed := found.observe configuration.market.barIntervalSeconds event
      applied.1 = .ok (observed.update event issues) ∧
      applied.2.symbols = Function.update active.symbols event.symbol (some observed.state) := by
  intro active applied
  simp only [applied, MarketState.apply]
  split
  · exact .inl ⟨by simp [active], .inl ⟨_, rfl⟩⟩
  · split
    · exact .inl ⟨by simp [active], .inl ⟨_, rfl⟩⟩
    · split
      · exact .inl ⟨by simp [active], .inr ⟨_, rfl⟩⟩
      · exact .inl ⟨by simp [active], .inl ⟨_, rfl⟩⟩
      · next event hevent =>
          simp only [MarketState.applyEvent]
          split
          · split
            · exact .inl ⟨by simp [active], .inr ⟨_, rfl⟩⟩
            · next found hfound =>
                refine .inr ⟨event, found, _, hevent, ?_, rfl, ?_⟩
                · simpa [active] using hfound
                · simp [MarketState.commit, active]
          · exact .inl ⟨by simp [active], .inr ⟨_, rfl⟩⟩

end

theorem MarketEvent.asTrade_symbol {event : MarketEvent} {trade : Trade}
    (h : event.asTrade = some trade) : trade.symbol = event.symbol := by
  cases event with
  | trade value => cases h; rfl
  | auction value => cases h
  | quote value => cases h

/-- An observation adds trades to its own symbol only. -/
theorem MarketLog.tradesOf_observed (log : MarketLog) (observed : SymbolState.Observation)
    (event : MarketEvent) (issues : List MarketIssue) (symbol : String) :
    (log.applied (.ok (observed.update event issues))).tradesOf symbol =
      log.tradesOf symbol ++ if event.symbol = symbol then observed.accepted event else [] := by
  simp only [MarketLog.applied, MarketLog.tradesOf, SymbolState.Observation.accepted,
    SymbolState.Observation.update]
  cases htrade : event.asTrade with
  | none => split <;> simp [htrade]
  | some trade =>
      have hsymbol := MarketEvent.asTrade_symbol htrade
      split <;> split <;> simp_all

/-- An observation finalizes bars of its own symbol only. -/
theorem MarketLog.barsOf_observed (log : MarketLog) {observed : SymbolState.Observation}
    {event : MarketEvent} (hbars : ∀ bar ∈ observed.finalizedBars, bar.symbol = event.symbol)
    (issues : List MarketIssue) (symbol : String) :
    (log.applied (.ok (observed.update event issues))).barsOf symbol =
      log.barsOf symbol ++ if event.symbol = symbol then observed.finalizedBars else [] := by
  simp only [MarketLog.applied, MarketLog.barsOf, SymbolState.Observation.update,
    List.filter_append]
  congr 1
  split
  · next hsame =>
      rw [List.filter_eq_self]
      intro bar hbar
      simp [hbars bar hbar, hsame]
  · next hother =>
      rw [List.filter_eq_nil_iff]
      intro bar hbar
      simp [hbars bar hbar, hother]

section

variable [Hashing D] [Sdk]

/-- **`apply`** records the event that it accepts and the bar that it finalizes. -/
theorem MarketRecorded.apply {state : MarketState} {log : MarketLog}
    (envelope : StreamEnvelope D)
    (h : MarketRecorded configuration (state.activate configuration envelope.streamSessionId) log) :
    MarketRecorded configuration (state.apply configuration envelope).2
      (log.applied (state.apply configuration envelope).1) := by
  obtain ⟨hsame, hresult⟩ | ⟨event, found, issues, -, hfound, hresult, hupdate⟩ :=
    state.apply_cases configuration envelope
  · have hlog : log.applied (state.apply configuration envelope).1 = log := by
      obtain ⟨issues, hok⟩ | ⟨raised, herror⟩ := hresult
      · simp [hok, MarketLog.applied]
      · rw [herror, MarketLog.applied]
    rw [hlog]
    exact h.of_symbols hsame
  · have hsymbol : event.symbol = event.symbol := rfl
    obtain ⟨hrecorded, -, -⟩ := (h.known event.symbol found hfound).observe hsymbol
    have hbars : ∀ bar ∈ (found.observe configuration.market.barIntervalSeconds event).finalizedBars,
        bar.symbol = event.symbol :=
      fun bar hbar => (hrecorded.bar_span (List.mem_append_right _ hbar)).1
    rw [hresult]
    constructor
    case known =>
      intro symbol after hafter
      rw [log.tradesOf_observed, log.barsOf_observed hbars]
      rw [hupdate] at hafter
      by_cases hsame : event.symbol = symbol
      · subst hsame
        rw [Function.update_self] at hafter
        obtain rfl := Option.some.inj hafter
        simpa using hrecorded
      · rw [Function.update_of_ne (Ne.symm hsame)] at hafter
        simpa [hsame] using h.known symbol after hafter
    case unknown =>
      intro symbol hnone
      rw [log.tradesOf_observed, log.barsOf_observed hbars]
      rw [hupdate] at hnone
      by_cases hsame : event.symbol = symbol
      · subst hsame
        simp at hnone
      · rw [Function.update_of_ne (Ne.symm hsame)] at hnone
        simpa [hsame] using h.unknown symbol hnone
    case domain =>
      intro symbol
      rw [hupdate]
      by_cases hsame : symbol = event.symbol
      · subst hsame
        rw [Function.update_self, ← h.domain]
        simp [hfound]
      · rw [Function.update_of_ne hsame]
        exact h.domain symbol

end

/-- **`advance`** records the bars that its boundary finalizes. -/
theorem MarketRecorded.advance {state state' : MarketState} {log : MarketLog}
    (h : MarketRecorded configuration state log) {eventTime availableAt : Instant}
    {bars : List Bar}
    (hadvance : state.advance configuration eventTime availableAt = .ok (bars, state')) :
    MarketRecorded configuration state' (log.advanced bars) := by
  simp only [MarketState.advance, bind_eq_ok, pure_eq_ok, Prod.mk.injEq] at hadvance
  obtain ⟨-, -, rfl, rfl⟩ := hadvance
  let closing (symbol : String) := (state.symbols symbol).bind (·.closing eventTime availableAt)
  have hsymbol : ∀ symbol, ∀ bar ∈ closing symbol, bar.symbol = symbol := by
    intro symbol bar hbar
    obtain ⟨found, hfound, hclosing⟩ := Option.bind_eq_some_iff.mp hbar
    have hrecorded := (h.known symbol found hfound).advance eventTime availableAt
    exact (hrecorded.bar_span (by simp [hclosing])).1
  have hbars : ∀ symbol, (log.advanced (sortOn (fun bar : Bar =>
      (toLex (bar.endAt, bar.symbol) : Instant ×ₗ String))
        (configuration.market.symbols.filterMap closing))).barsOf symbol =
      log.barsOf symbol ++ (closing symbol).toList := by
    intro symbol
    simp only [MarketLog.advanced, MarketLog.barsOf, List.filter_append]
    congr 1
    have hperm := (sortOn_perm (fun bar : Bar =>
      (toLex (bar.endAt, bar.symbol) : Instant ×ₗ String))
        (configuration.market.symbols.filterMap closing)).filter (·.symbol == symbol)
    by_cases hmem : symbol ∈ configuration.market.symbols
    · rw [filter_filterMap_lookup configuration.market.symbols_unique.2.1 hsymbol hmem] at hperm
      cases hclosing : closing symbol with
      | none => exact List.perm_nil.mp (by simpa [hclosing] using hperm)
      | some bar => exact List.perm_singleton.mp (by simpa [hclosing] using hperm)
    · have hnone : state.symbols symbol = none := by
        have hdomain := (h.domain symbol).not.mpr hmem
        simpa using hdomain
      have hempty : (configuration.market.symbols.filterMap closing).filter
          (·.symbol == symbol) = [] := by
        rw [List.filter_eq_nil_iff]
        intro bar hbar hsame
        obtain ⟨other, hother, hclosing⟩ := List.mem_filterMap.mp hbar
        rw [hsymbol other bar hclosing] at hsame
        exact hmem (beq_iff_eq.mp hsame ▸ hother)
      rw [hempty] at hperm
      rw [List.perm_nil.mp hperm]
      simp [closing, hnone]
  constructor
  case known =>
    intro symbol after hafter
    obtain ⟨found, hfound, rfl⟩ := Option.map_eq_some_iff.mp hafter
    have hrecorded := (h.known symbol found hfound).advance eventTime availableAt
    rw [hbars]
    simpa [closing, hfound] using hrecorded
  case unknown =>
    intro symbol hnone
    have hnone' : state.symbols symbol = none := by simpa using hnone
    rw [hbars]
    simpa [closing, hnone'] using h.unknown symbol hnone'
  case domain =>
    intro symbol
    simpa using h.domain symbol

/-- The finalized bars of a log have distinct symbols and starts. -/
theorem MarketRecorded.bars_unique {state : MarketState} {log : MarketLog}
    (h : MarketRecorded configuration state log) :
    (log.finalized.map fun bar => (bar.symbol, bar.start)).Nodup := by
  apply nodup_pairs_of_ascending
  intro symbol
  cases hfound : state.symbols symbol with
  | none =>
      have hnone : log.finalized.filter (·.symbol == symbol) = [] := (h.unknown symbol hfound).2
      rw [hnone]
      exact List.Pairwise.nil
  | some found => exact (h.known symbol found hfound).ascending

/-! ## One stream session -/

section

variable [Hashing D] [Sdk]

/-- `apply` activates the session of its envelope. -/
theorem MarketState.apply_active (configuration : TradingVersion) (state : MarketState)
    (envelope : StreamEnvelope D) :
    (state.apply configuration envelope).2.activeStreamSessionId =
      some envelope.streamSessionId := by
  have hrecord : ((state.activate configuration envelope.streamSessionId).recordSequence
      envelope).activeStreamSessionId = some envelope.streamSessionId := by
    rw [MarketState.recordSequence_active]
    rfl
  simp only [MarketState.apply]
  split
  · exact hrecord
  · split
    · exact hrecord
    · split
      · exact hrecord
      · exact hrecord
      · simp only [MarketState.applyEvent]
        split
        · split
          · exact hrecord
          · exact hrecord
        · exact hrecord

end

/-- A session that is already active keeps market state. -/
theorem MarketState.activate_symbols (configuration : TradingVersion) {state : MarketState}
    {streamSessionId : String} (h : ∀ active ∈ state.activeStreamSessionId, active = streamSessionId) :
    (state.activate configuration streamSessionId).symbols = state.symbols := by
  rw [MarketState.activate]
  apply if_neg
  cases hactive : state.activeStreamSessionId with
  | none => simp
  | some active => simp [h active hactive]

theorem MarketState.advance_active {state state' : MarketState} {eventTime availableAt : Instant}
    {bars : List Bar}
    (hadvance : state.advance configuration eventTime availableAt = .ok (bars, state')) :
    state'.activeStreamSessionId = state.activeStreamSessionId := by
  simp only [MarketState.advance, bind_eq_ok, pure_eq_ok, Prod.mk.injEq] at hadvance
  obtain ⟨-, -, -, rfl⟩ := hadvance
  rfl

/-- A call of a market state's owner. -/
inductive MarketCall (D : Type) where
  | apply (envelope : StreamEnvelope D)
  | advance (eventTime availableAt : Instant)

/-- Every envelope of the calls is of one stream session. -/
def MarketCall.OfSession (streamSessionId : String) (calls : List (MarketCall D)) : Prop :=
  ∀ envelope, .apply envelope ∈ calls → envelope.streamSessionId = streamSessionId

section

variable [Hashing D] [Sdk]

namespace MarketCall

/-- The state and the log after one call, which may raise. -/
def step (configuration : TradingVersion) (run : MarketState × MarketLog) :
    MarketCall D → MarketState × MarketLog
  | .apply envelope =>
      ((run.1.apply configuration envelope).2,
        run.2.applied (run.1.apply configuration envelope).1)
  | .advance eventTime availableAt =>
      match run.1.advance configuration eventTime availableAt with
      | .ok (bars, state) => (state, run.2.advanced bars)
      | .error _ => run

/-- The state and the log after any calls of a new market state. -/
def runAll (configuration : TradingVersion) (calls : List (MarketCall D)) :
    MarketState × MarketLog :=
  calls.foldl (step configuration) (.initial configuration, ⟨[], []⟩)

/-- **Any interleaving** of one session's calls is recorded. -/
theorem runAll_recorded (configuration : TradingVersion) {streamSessionId : String}
    {calls : List (MarketCall D)} (h : OfSession streamSessionId calls) :
    MarketRecorded configuration (runAll configuration calls).1 (runAll configuration calls).2 ∧
      ∀ active ∈ (runAll configuration calls).1.activeStreamSessionId,
        active = streamSessionId := by
  induction calls using List.reverseRecOn with
  | nil => exact ⟨.fresh rfl, by simp [runAll, MarketState.initial]⟩
  | append_singleton calls call ih =>
      obtain ⟨hrecorded, hactive⟩ := ih fun envelope hmem => h envelope (by simp [hmem])
      simp only [runAll, List.foldl_append, List.foldl_cons, List.foldl_nil] at hrecorded hactive ⊢
      cases call with
      | apply envelope =>
          have hsession := h envelope (by simp)
          refine ⟨?_, ?_⟩
          · apply MarketRecorded.apply
            apply hrecorded.of_symbols
            apply MarketState.activate_symbols
            rw [hsession]
            exact hactive
          · intro active hmem
            rw [step, MarketState.apply_active] at hmem
            rw [← Option.some.inj hmem, hsession]
      | advance eventTime availableAt =>
          simp only [step]
          split
          · next bars state hadvance =>
              refine ⟨hrecorded.advance hadvance, ?_⟩
              rw [MarketState.advance_active hadvance]
              exact hactive
          · exact ⟨hrecorded, hactive⟩

end MarketCall

/-- **Bars account for every accepted trade exactly once.**  After any
interleaving of one session's calls, the accepted trades of a symbol split, in
order, into the groups of its finalized bars and of its open bar; each bar has
exactly its group's prices, volumes and value, starts ascend, no bar is finalized
twice, and volumes add up to the growth of the cumulative volume.  No trade that
`apply` would accept next lies in an interval that is closed, and none starts
before the open bar. -/
theorem bars_account_for_trades (configuration : TradingVersion) {streamSessionId : String}
    {calls : List (MarketCall D)} (hsession : MarketCall.OfSession streamSessionId calls) :
    let interval := configuration.market.barIntervalSeconds
    let state := (MarketCall.runAll configuration calls).1
    let log := (MarketCall.runAll configuration calls).2
    (∀ symbol found, state.symbols symbol = some found →
      (∃ (groups : List (List Trade)) (current : List Trade),
        groups.flatten ++ current = log.tradesOf symbol ∧
        List.Forall₂ (fun bar group => Covers interval symbol bar.opened group ∧ bar.Priced)
          (log.barsOf symbol) groups ∧
        (∀ bar ∈ found.openBar, Covers interval symbol bar current) ∧
        (found.openBar = none → current = [])) ∧
      ((log.barsOf symbol).map Bar.start ++ (found.openBar.map OpenBar.start).toList).Pairwise
        (· < ·) ∧
      (∀ first ∈ (log.tradesOf symbol).head?, ∀ last ∈ (log.tradesOf symbol).getLast?,
        ((log.barsOf symbol).map (·.volume)).sum + found.openBar.elim 0 (·.volume) +
          first.cumulativeVolume = last.cumulativeVolume + first.quantity) ∧
      ∀ trade : Trade, ¬found.lastTradeTime.any (trade.eventTime < ·) = true →
        ∀ bar ∈ found.openBar, bar.start ≤ barStart trade.eventTime interval) ∧
    (log.finalized.map fun bar => (bar.symbol, bar.start)).Nodup ∧
    ∀ envelope : StreamEnvelope D, envelope.streamSessionId = streamSessionId →
      ∀ update, (state.apply configuration envelope).1 = .ok update →
      ∀ trade, update.event = some (.trade trade) →
      ∀ found, state.symbols trade.symbol = some found →
      ∀ closed ∈ found.closedThrough, closed < barStart trade.eventTime interval + seconds interval := by
  obtain ⟨hrecorded, hactive⟩ := MarketCall.runAll_recorded configuration hsession
  refine ⟨?_, hrecorded.bars_unique, ?_⟩
  · intro symbol found hfound
    have hknown := hrecorded.known symbol found hfound
    refine ⟨?_, ?_, ?_, ?_⟩
    · obtain ⟨groups, current, hflat, hgroups, hcurrent, hnone⟩ := hknown.grouped
      refine ⟨groups, current, hflat, ?_, hcurrent, hnone⟩
      refine List.forall₂_iff_get.mpr ⟨hgroups.length_eq, fun i hi hi' => ⟨?_, ?_⟩⟩
      · exact hgroups.get hi hi'
      · exact hknown.priced _ (List.get_mem _ _)
    · rw [List.pairwise_append]
      refine ⟨hknown.ascending, ?_, ?_⟩
      · cases found.openBar <;> simp
      · intro start hstart start' hstart'
        obtain ⟨bar, hbar, rfl⟩ := List.mem_map.mp hstart
        obtain ⟨current, hcurrent, rfl⟩ : ∃ current, current ∈ found.openBar ∧
            current.start = start' := by simpa using hstart'
        exact hknown.before bar hbar current hcurrent
    · intro first hfirst last hlast
      rw [hknown.volumes]
      exact quantity_telescopes hknown.continuous hfirst hlast
    · intro trade htime bar hbar
      exact hknown.open_not_after hbar htime
  · intro envelope henvelope update hupdate trade htrade found hfound closed hclosed
    have hsame : ((MarketCall.runAll configuration calls).1.activate configuration
        envelope.streamSessionId).symbols = (MarketCall.runAll configuration calls).1.symbols := by
      apply MarketState.activate_symbols
      rw [henvelope]
      exact hactive
    obtain ⟨-, ⟨issues, hok⟩ | ⟨raised, herror⟩⟩ | ⟨event, before, issues, -, hbefore, hok, -⟩ :=
      (MarketCall.runAll configuration calls).1.apply_cases configuration envelope
    · rw [hok] at hupdate
      obtain rfl := Except.ok.inj hupdate
      cases htrade
    · rw [herror] at hupdate
      cases hupdate
    · rw [hok] at hupdate
      obtain rfl := Except.ok.inj hupdate
      rw [hsame] at hbefore
      have hsymbol : event.symbol = event.symbol := rfl
      have hobserve := ((hrecorded.known event.symbol before hbefore).observe hsymbol).2.2
      simp only [SymbolState.Observation.update] at htrade
      split at htrade
      · next hissues =>
          obtain rfl := Option.some.inj htrade
          obtain rfl : before = found := Option.some.inj (hbefore.symm.trans hfound)
          refine hobserve trade ?_ closed hclosed
          simp [SymbolState.Observation.accepted, hissues, MarketEvent.asTrade]
      · cases htrade

end

namespace Rehearsal

/-- Three trades of two minutes. -/
def trades : List TradeMessage :=
  [tradeMessage "09:00:30" 50000 10 "B" 10, tradeMessage "09:00:40" 50100 20 "S" 30,
    tradeMessage "09:01:10" 50200 5 "B" 35]

/-- The trades are received, and the second minute ends. -/
def tradeCalls : List (MarketCall Spelled) :=
  [.apply (envelope "session-1" 1 "TradeMessage" (tradeText (tradeMessage "09:00:30" 50000 10 "B" 10))
      "09:00:30" 7231 (by decide +kernel)),
    .apply (envelope "session-1" 2 "TradeMessage" (tradeText (tradeMessage "09:00:40" 50100 20 "S" 30))
      "09:00:40" 7241 (by decide +kernel)),
    .apply (envelope "session-1" 3 "TradeMessage" (tradeText (tradeMessage "09:01:10" 50200 5 "B" 35))
      "09:01:10" 7271 (by decide +kernel)),
    .advance (20700 * dayLength + seconds 7320) (20700 * dayLength + seconds 7320)]

end Rehearsal

open Rehearsal in
/-- The rehearsed trades fill two bars, of thirty and of five shares. -/
theorem bars_account_for_trades_rehearsal :
    let run := @MarketCall.runAll Spelled _ (sdk trades []) Trading.marketState tradeCalls
    (run.2.finalized.map fun bar => (bar.symbol, bar.start)).Nodup ∧
      run.2.finalized.map (·.volume) = [30, 5] := by
  have hsession : MarketCall.OfSession "session-1" tradeCalls := by
    intro received hmem
    simp only [tradeCalls, List.mem_cons, MarketCall.apply.injEq, reduceCtorEq, List.not_mem_nil,
      or_false] at hmem
    rcases hmem with rfl | rfl | rfl <;> rfl
  exact ⟨(@bars_account_for_trades Spelled _ (sdk trades []) Trading.marketState _ _ hsession).2.1,
    by decide +kernel⟩

end MiniLakehouse
