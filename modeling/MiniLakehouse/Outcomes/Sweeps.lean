import MiniLakehouse.Configuration.Trading
import MiniLakehouse.Library.Sweep
import MiniLakehouse.Outcomes.Engine

/-!
# Book sweeps

`_book_vwap` sweeps a side of the book for a quantity and rounds the average price.  The
decoder orders the levels of a side from best to worst, at whole prices, so that the
average lies between the best level and the last one it reaches, gets worse with the
quantity, and never crosses the other side; and rounding, which keeps order and whole
prices, changes none of it.
-/

namespace MiniLakehouse

/-! ## Sides and what an order sweeps of them -/

/-- The levels that an action trades against. -/
def QuoteSnapshot.side (quote : QuoteSnapshot) : Action → List QuoteLevel
  | .buy => quote.asks
  | .sell => quote.bids

/-- The summed quantity of some levels. -/
def depthOf (levels : List QuoteLevel) : Nat := (levels.map (·.quantity)).sum

/-- The last level that a quantity reaches. -/
def lastSwept : Nat → List QuoteLevel → Option QuoteLevel
  | _, [] => none
  | remaining, level :: rest =>
      if remaining ≤ level.quantity then some level
      else lastSwept (remaining - level.quantity) rest

/-- A price is at least as good as another for who takes the action. -/
def Action.NoWorse : Action → Rat → Rat → Prop
  | .buy, price, other => price ≤ other
  | .sell, price, other => other ≤ price

theorem Action.noWorse_refl (action : Action) (price : Rat) : action.NoWorse price price := by
  cases action <;> exact le_refl price

theorem Action.NoWorse.trans {action : Action} {first second third : Rat}
    (h : action.NoWorse first second) (h' : action.NoWorse second third) :
    action.NoWorse first third := by
  cases action
  · exact le_trans (α := Rat) h h'
  · exact le_trans (α := Rat) h' h

/-- Rounding to the price quantum keeps what is no worse. -/
theorem Action.NoWorse.quantize {action : Action} {price other : Rat}
    (h : action.NoWorse price other) (places : Nat) :
    action.NoWorse (quantizeHalfUp places price) (quantizeHalfUp places other) := by
  cases action
  · exact quantizeHalfUp_mono places h
  · exact quantizeHalfUp_mono places h

/-! ## Sweeps as means -/

/-- A level as a lot. -/
def QuoteLevel.lot (level : QuoteLevel) : Rat × Nat := (level.price, level.quantity)

/-- The price of each share of a side, best first. -/
def sharePrices (levels : List QuoteLevel) : List Rat := units (levels.map QuoteLevel.lot)

theorem length_sharePrices (levels : List QuoteLevel) :
    (sharePrices levels).length = depthOf levels := by
  rw [sharePrices, length_units, List.map_map]
  rfl

/-- **The loop of `_book_vwap`** pays each share its price, where there are enough. -/
theorem fillNotional_eq {levels : List QuoteLevel} {remaining : Nat} (hpos : 0 < remaining)
    (notional : Rat) : fillNotional remaining notional levels =
      if remaining ≤ depthOf levels then
        some (notional + ((sharePrices levels).take remaining).sum)
      else none := by
  induction levels generalizing remaining notional with
  | nil => simp [fillNotional, depthOf, hpos.ne']
  | cons level rest ih =>
      have hdepth : depthOf (level :: rest) = level.quantity + depthOf rest := List.sum_cons
      by_cases hinside : remaining ≤ level.quantity
      · have hsum : ((sharePrices (level :: rest)).take remaining).sum =
            level.price * remaining := sum_take_units_of_le level.lot hinside
        rw [if_pos (by omega), hsum]
        simp [fillNotional, min_eq_left hinside]
      · have hafter : level.quantity < remaining := not_le.mp hinside
        have hsum : ((sharePrices (level :: rest)).take remaining).sum =
            level.price * level.quantity +
              ((sharePrices rest).take (remaining - level.quantity)).sum :=
          sum_take_units_of_lt level.lot hafter
        have hrest := @ih (remaining - level.quantity) (by omega)
          (notional + level.price * level.quantity)
        rw [fillNotional, min_eq_right hafter.le, if_neg (by omega), hrest, hsum, hdepth]
        by_cases henough : remaining ≤ level.quantity + depthOf rest
        · rw [if_pos (by omega), if_pos henough, add_assoc]
        · rw [if_neg (by omega), if_neg henough]

/-- `_book_vwap` is the rounded mean of the shares it takes. -/
theorem bookVwap_eq {quote : QuoteSnapshot} {action : Action} {quantity : Nat}
    (hpos : 0 < quantity) : bookVwap quote action quantity =
      if quantity ≤ depthOf (quote.side action) then
        some (quantizeHalfUp pricePlaces (prefixMean (sharePrices (quote.side action)) quantity))
      else none := by
  by_cases henough : quantity ≤ depthOf (quote.side action)
  · cases action <;> rw [QuoteSnapshot.side] at henough <;>
      simp [bookVwap, QuoteSnapshot.side, fillNotional_eq hpos, henough, prefixMean]
  · cases action <;> rw [QuoteSnapshot.side] at henough <;>
      simp [bookVwap, QuoteSnapshot.side, fillNotional_eq hpos, henough]

theorem mem_of_lastSwept {levels : List QuoteLevel} {quantity : Nat} {last : QuoteLevel}
    (h : lastSwept quantity levels = some last) : last ∈ levels := by
  induction levels generalizing quantity with
  | nil => cases h
  | cons level rest ih =>
      unfold lastSwept at h
      split at h
      · obtain rfl := Option.some.inj h
        exact List.mem_cons_self ..
      · exact List.mem_cons_of_mem _ (ih h)

/-- The shares that a quantity takes are priced between the best level and the last one it
reaches. -/
theorem swept_between {action : Action} {levels : List QuoteLevel}
    (hordered : levels.Pairwise fun a b => action.NoWorse a.price b.price) {quantity : Nat}
    (hpos : 0 < quantity) (henough : quantity ≤ depthOf levels) :
    ∃ best ∈ levels.head?, ∃ last ∈ lastSwept quantity levels,
      ∀ price ∈ (sharePrices levels).take quantity,
        action.NoWorse best.price price ∧ action.NoWorse price last.price := by
  induction levels generalizing quantity with
  | nil => simp [depthOf, hpos.ne'] at henough
  | cons level rest ih =>
      obtain ⟨hhead, hrest⟩ := List.pairwise_cons.mp hordered
      have hdepth : depthOf (level :: rest) = level.quantity + depthOf rest := List.sum_cons
      have hshares : sharePrices (level :: rest) =
          List.replicate level.quantity level.price ++ sharePrices rest := units_cons ..
      refine ⟨level, rfl, ?_⟩
      by_cases hinside : quantity ≤ level.quantity
      · refine ⟨level, by simp [lastSwept, hinside], ?_⟩
        intro price hprice
        rw [hshares, List.take_append_of_le_length (by simpa using hinside)] at hprice
        rw [List.eq_of_mem_replicate (List.mem_of_mem_take hprice)]
        exact ⟨action.noWorse_refl _, action.noWorse_refl _⟩
      · obtain ⟨_, -, last, hlast, hbetween⟩ :=
          @ih hrest (quantity - level.quantity) (by omega) (by omega)
        refine ⟨last, by simpa [lastSwept, hinside] using hlast, ?_⟩
        intro price hprice
        rw [hshares, List.take_append, List.length_replicate] at hprice
        rcases List.mem_append.mp hprice with hprice | hprice
        · rw [List.eq_of_mem_replicate (List.mem_of_mem_take hprice)]
          exact ⟨action.noWorse_refl _, hhead last (mem_of_lastSwept hlast)⟩
        · obtain ⟨lot, hlot, rfl⟩ := mem_units (List.mem_of_mem_take hprice)
          obtain ⟨found, hfound, rfl⟩ := List.mem_map.mp hlot
          exact ⟨hhead found hfound, (hbetween _ hprice).2⟩

/-- A mean is between what its numbers are between. -/
theorem Action.noWorse_prefixMean {action : Action} {xs : List Rat} {count : Nat}
    {best last : Rat} (hpos : 0 < count) (hlength : count ≤ xs.length)
    (h : ∀ x ∈ xs.take count, action.NoWorse best x ∧ action.NoWorse x last) :
    action.NoWorse best (prefixMean xs count) ∧ action.NoWorse (prefixMean xs count) last := by
  cases action
  · exact ⟨le_prefixMean hpos hlength fun x hx => (h x hx).1,
      prefixMean_le hpos hlength fun x hx => (h x hx).2⟩
  · exact ⟨prefixMean_le hpos hlength fun x hx => (h x hx).1,
      le_prefixMean hpos hlength fun x hx => (h x hx).2⟩

/-- The mean of what gets worse gets worse. -/
theorem Action.prefixMean_worsens {action : Action} {xs : List Rat}
    (h : xs.Pairwise action.NoWorse) {small large : Nat} (hpos : 0 < small) (hle : small ≤ large)
    (hlength : large ≤ xs.length) :
    action.NoWorse (prefixMean xs small) (prefixMean xs large) := by
  cases action
  · exact prefixMean_mono h hpos hle hlength
  · exact prefixMean_anti h hpos hle hlength

/-! ## Decoded books -/

/-- A side that runs from best to worst, at whole prices. -/
structure BookSide (action : Action) (levels : List QuoteLevel) : Prop where
  ordered : levels.Pairwise fun a b => action.NoWorse a.price b.price
  whole : ∀ level ∈ levels, level.price.den = 1

namespace BookSide

variable {quote : QuoteSnapshot} {action : Action}

/-- The decoder accepts no other sides. -/
theorem of_decoded {D : Type} [Hashing D] [Sdk] {envelope : StreamEnvelope D} {quoteDepth : Nat}
    {timezone : ZoneInfo}
    (h : decodeEvent envelope quoteDepth timezone = .ok (some (.quote quote)))
    (action : Action) : BookSide action (quote.side action) := by
  obtain ⟨hbids, hasks, hwhole⟩ := decodeEvent_quote h
  cases action with
  | buy =>
      refine ⟨hasks.imp fun hlt => le_of_lt hlt, ?_⟩
      intro level hlevel
      exact hwhole level (List.mem_append_right _ hlevel)
  | sell =>
      refine ⟨hbids.imp fun hlt => le_of_lt hlt, ?_⟩
      intro level hlevel
      exact hwhole level (List.mem_append_left _ hlevel)

/-- A level's price is on the price quantum. -/
theorem quantize_price {levels : List QuoteLevel} (h : BookSide action levels)
    {level : QuoteLevel} (hlevel : level ∈ levels) :
    quantizeHalfUp pricePlaces level.price = level.price := by
  rw [← Rat.coe_int_num_of_den_eq_one (h.whole level hlevel)]
  exact quantizeHalfUp_intCast pricePlaces _

/-- The price of a sweep lies between the best level and the last one it reaches. -/
theorem bookVwap_between (h : BookSide action (quote.side action)) {quantity : Nat}
    (hpos : 0 < quantity) {price : Rat} (hprice : bookVwap quote action quantity = some price) :
    ∃ best ∈ (quote.side action).head?, ∃ last ∈ lastSwept quantity (quote.side action),
      action.NoWorse best.price price ∧ action.NoWorse price last.price := by
  rw [bookVwap_eq hpos] at hprice
  split at hprice
  · next henough =>
      obtain rfl := Option.some.inj hprice
      obtain ⟨best, hbest, last, hlast, hbetween⟩ := swept_between h.ordered hpos henough
      obtain ⟨hlow, hhigh⟩ := Action.noWorse_prefixMean hpos
        (by rwa [length_sharePrices]) hbetween
      have hlow' := hlow.quantize pricePlaces
      have hhigh' := hhigh.quantize pricePlaces
      rw [h.quantize_price (List.mem_of_mem_head? hbest)] at hlow'
      rw [h.quantize_price (mem_of_lastSwept hlast)] at hhigh'
      exact ⟨best, hbest, last, hlast, hlow', hhigh'⟩
  · cases hprice

/-- A larger quantity gets no better price. -/
theorem bookVwap_worsens (h : BookSide action (quote.side action)) {small large : Nat}
    (hpos : 0 < small) (hle : small ≤ large) {price price' : Rat}
    (hprice : bookVwap quote action small = some price)
    (hprice' : bookVwap quote action large = some price') : action.NoWorse price price' := by
  rw [bookVwap_eq hpos] at hprice
  rw [bookVwap_eq (hpos.trans_le hle)] at hprice'
  split at hprice
  · split at hprice'
    · next henough =>
        obtain rfl := Option.some.inj hprice
        obtain rfl := Option.some.inj hprice'
        have hshares : (sharePrices (quote.side action)).Pairwise action.NoWorse :=
          units_pairwise action.noWorse_refl (List.pairwise_map.mpr h.ordered)
        apply Action.NoWorse.quantize
        exact Action.prefixMean_worsens hshares hpos hle (by rwa [length_sharePrices])
    · cases hprice'
  · cases hprice

end BookSide

/-- **Book sweeps are monotone and never create instantaneous profit.**  On a complete
decoded book a sweep is priced exactly where the side is deep enough, between its best
level and the last one it reaches; a larger quantity gets no better price; and buying any
quantity costs more than selling any quantity brings. -/
theorem book_sweeps_sound {D : Type} [Hashing D] [Sdk] {envelope : StreamEnvelope D}
    {quoteDepth : Nat} {timezone : ZoneInfo} {quote : QuoteSnapshot}
    (hdecoded : decodeEvent envelope quoteDepth timezone = .ok (some (.quote quote)))
    (hcomplete : quote.isComplete = true) :
    (∀ action quantity, 1 ≤ quantity →
      ((bookVwap quote action quantity).isSome ↔ quantity ≤ depthOf (quote.side action))) ∧
    (∀ action quantity price, 1 ≤ quantity → bookVwap quote action quantity = some price →
      ∃ best ∈ (quote.side action).head?, ∃ last ∈ lastSwept quantity (quote.side action),
        action.NoWorse best.price price ∧ action.NoWorse price last.price) ∧
    (∀ action small large price price', 1 ≤ small → small ≤ large →
      bookVwap quote action small = some price → bookVwap quote action large = some price' →
        action.NoWorse price price') ∧
    ∀ bought sold cost proceeds, 1 ≤ bought → 1 ≤ sold →
      bookVwap quote .buy bought = some cost → bookVwap quote .sell sold = some proceeds →
        proceeds < cost := by
  have hside := BookSide.of_decoded hdecoded
  refine ⟨?_, ?_, ?_, ?_⟩
  · intro action quantity hpos
    rw [bookVwap_eq hpos]
    split <;> simp_all
  · intro action quantity price hpos hprice
    exact (hside action).bookVwap_between hpos hprice
  · intro action small large price price' hpos hle hprice hprice'
    exact (hside action).bookVwap_worsens hpos hle hprice hprice'
  · intro bought sold cost proceeds hbought hsold hcost hproceeds
    obtain ⟨bid, hbid, ask, hask, huncrossed⟩ := quote.complete_uncrossed hcomplete
    obtain ⟨best, hbest, -, -, hlow, -⟩ := (hside .buy).bookVwap_between hbought hcost
    obtain ⟨best', hbest', -, -, hhigh, -⟩ := (hside .sell).bookVwap_between hsold hproceeds
    obtain rfl : ask = best := Option.some.inj (hask.symm.trans hbest)
    obtain rfl : bid = best' := Option.some.inj (hbid.symm.trans hbest')
    exact lt_of_le_of_lt hhigh (lt_of_lt_of_le huncrossed hlow)

namespace Rehearsal

/-- 49900 bid, 50000 asked, three levels of 100 shares a side. -/
def sweptQuote : QuoteMessage := quoteMessage "09:20:00" 49900 50000

/-- The envelope of the quote. -/
def sweptEnvelope : StreamEnvelope Spelled :=
  envelope "session-1" 1 "QuoteMessage" (quoteText sweptQuote) "09:20:00" 8401 (by decide +kernel)

/-- What the decoded quote charges for 150 shares and pays for 300. -/
private def sweptRehearsal : Bool :=
  letI := sdk [] [sweptQuote]
  match decodeEvent sweptEnvelope 3 Trading.timezone with
  | .ok (some (.quote quote)) =>
      quote.isComplete && bookVwap quote .buy 150 = some (5003333333333 / 10 ^ 8) &&
        bookVwap quote .sell 300 = some 49800
  | _ => false

private theorem sweptRehearsal_holds : sweptRehearsal = true := by decide +kernel

end Rehearsal

open Rehearsal in
/-- The rehearsed book is complete and decoded, and its sweeps are sound. -/
theorem book_sweeps_rehearsed :
    letI := sdk [] [sweptQuote]
    ∃ quote, decodeEvent sweptEnvelope 3 Trading.timezone = .ok (some (.quote quote)) ∧
      bookVwap quote .buy 150 = some (5003333333333 / 10 ^ 8) ∧
      bookVwap quote .sell 300 = some 49800 ∧
      ∀ bought sold cost proceeds, 1 ≤ bought → 1 ≤ sold →
        bookVwap quote .buy bought = some cost → bookVwap quote .sell sold = some proceeds →
          proceeds < cost := by
  have hholds := sweptRehearsal_holds
  unfold sweptRehearsal at hholds
  split at hholds
  · next quote hdecoded =>
      simp only [Bool.and_eq_true, decide_eq_true_eq] at hholds
      obtain ⟨⟨hcomplete, hcost⟩, hproceeds⟩ := hholds
      exact ⟨quote, hdecoded, hcost, hproceeds,
        (@book_sweeps_sound Spelled _ (sdk [] [sweptQuote]) _ _ _ _ hdecoded hcomplete).2.2.2⟩
  · cases hholds

end MiniLakehouse
