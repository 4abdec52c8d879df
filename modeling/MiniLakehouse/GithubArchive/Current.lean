import MiniLakehouse.GithubArchive.Curated

/-!
# Current GitHub entities

What publications of landed days come to.  The table of events always ends with the latest
delivery of each event, and the tables of actors and repositories with the attributes of a
latest occurrence that mentions the entity.  A recurring event breaks the tie between its
deliveries by the order in which their days were published, so that the entities follow the
landing table, and agree with the events, exactly where the latest occurrence that mentions an
entity is settled by the latest delivery of its event.
-/

namespace MiniLakehouse

/-- No day has an event twice. -/
def OncePerDay (landing : List LandedEvent) : Prop :=
  (landing.map fun event => (event.sourceDate, event.eventId)).Nodup

instance (landing : List LandedEvent) : Decidable (OncePerDay landing) :=
  inferInstanceAs (Decidable (List.Nodup _))

/-- Every landed day is published. -/
def CoversDays (landing : List LandedEvent) (days : List Day) : Prop :=
  ∀ event ∈ landing, event.sourceDate ∈ days

instance (landing : List LandedEvent) (days : List Day) : Decidable (CoversDays landing days) :=
  inferInstanceAs (Decidable (∀ _ ∈ _, _))

/-! ## Landing -/

/-- Events that are landed do not share an id. -/
theorem deduplicateExactEvents_nodup {events kept : List LandedEvent}
    (h : deduplicateExactEvents events = .ok kept) : (kept.map (·.eventId)).Nodup := by
  unfold deduplicateExactEvents at h
  dsimp only at h
  split at h
  · cases h
  · next hnone =>
      obtain rfl := Except.ok.inj h
      have hdistinct : events.dedup.Nodup := List.nodup_dedup events
      apply (List.nodup_map_iff_inj_on hdistinct).mpr
      intro event hevent other hother hsame
      by_contra hne
      have hcount := List.find?_eq_none.mp hnone event hevent
      rw [decide_eq_true_eq, not_lt] at hcount
      have hpair : [event, other] ⊆ events.dedup.filter (·.eventId = event.eventId) := by
        intro item hitem
        rcases List.mem_cons.mp hitem with rfl | hitem
        · simpa using hevent
        · rw [List.mem_singleton.mp hitem]
          simpa [hsame] using hother
      have hnodup : [event, other].Nodup := by simpa using hne
      have hlength := (hnodup.subperm hpair).length_le
      rw [List.length_cons, List.length_singleton] at hlength
      omega

/-- Landing a day leaves one row for an event of a day. -/
theorem OncePerDay.overwriteDay {landing events : List LandedEvent} (h : OncePerDay landing)
    {sourceDay : Day} (hevents : (events.map (·.eventId)).Nodup)
    (hday : ∀ event ∈ events, event.sourceDate = sourceDay) :
    OncePerDay (overwriteDay landing sourceDay events) := by
  unfold OncePerDay MiniLakehouse.overwriteDay
  rw [List.map_append]
  apply List.Nodup.append
  · exact h.sublist (List.filter_sublist.map _)
  · have hkeys : (events.map fun event => (event.sourceDate, event.eventId)).map Prod.snd =
        events.map (·.eventId) := by
      rw [List.map_map]
      rfl
    exact List.Nodup.of_map Prod.snd (hkeys ▸ hevents)
  · intro key hkey hkey'
    obtain ⟨event, hevent, rfl⟩ := List.mem_map.mp hkey
    obtain ⟨other, hother, hsame⟩ := List.mem_map.mp hkey'
    have hdate := (Prod.mk.inj hsame).1
    rw [hday other hother] at hdate
    have hnot := (List.mem_filter.mp hevent).2
    rw [decide_eq_true_eq] at hnot
    exact hnot hdate.symm

section Publications

variable [SparkSql]

/-! ## Deliveries and mentions -/

/-- Landed rows as they are curated. -/
def curatedRows (landing : List LandedEvent) : List GithubEvent := landing.map (·.curated)

/-- The row of an event that no other row of it was delivered after. -/
def LatestDelivery (landing : List LandedEvent) (event : GithubEvent) : Prop :=
  event ∈ curatedRows landing ∧ ∀ other ∈ curatedRows landing, other.eventId = event.eventId →
    deliveryOrder other ≤ deliveryOrder event

/-- A row that mentions an entity, and that no other row that does is after. -/
def LatestMention (landing : List LandedEvent) (entity : GithubEvent → Option Int) (id : Int)
    (event : GithubEvent) : Prop :=
  (event ∈ curatedRows landing ∧ entity event = some id) ∧ ∀ other ∈ curatedRows landing,
    entity other = some id → occurrenceOrder other ≤ occurrenceOrder event

/-- The day that a row was delivered on. -/
def GithubEvent.sourceDate (event : GithubEvent) : Day := event.sourceHour / dayLength

theorem mem_githubDay {landing : List LandedEvent} {sourceDate : Day} {event : GithubEvent} :
    event ∈ githubDay landing sourceDate ↔
      event ∈ curatedRows landing ∧ event.sourceDate = sourceDate := by
  unfold githubDay curatedRows
  constructor
  · intro hevent
    obtain ⟨landed, hlanded, rfl⟩ := List.mem_map.mp hevent
    obtain ⟨hmem, hdate⟩ := List.mem_filter.mp hlanded
    exact ⟨List.mem_map_of_mem hmem, of_decide_eq_true hdate⟩
  · intro hevent
    obtain ⟨hmem, hdate⟩ := hevent
    obtain ⟨landed, hlanded, rfl⟩ := List.mem_map.mp hmem
    exact List.mem_map_of_mem (List.mem_filter.mpr ⟨hlanded, decide_eq_true hdate⟩)

/-- One delivery of an event on one day. -/
theorem OncePerDay.eq {landing : List LandedEvent} (h : OncePerDay landing) {event other : GithubEvent}
    (hevent : event ∈ curatedRows landing) (hother : other ∈ curatedRows landing)
    (hid : event.eventId = other.eventId) (hdate : event.sourceDate = other.sourceDate) :
    event = other := by
  obtain ⟨landed, hlanded, rfl⟩ := List.mem_map.mp hevent
  obtain ⟨landed', hlanded', rfl⟩ := List.mem_map.mp hother
  have hkey : (landed.sourceDate, landed.eventId) = (landed'.sourceDate, landed'.eventId) :=
    Prod.ext hdate hid
  rw [List.inj_on_of_nodup_map h hlanded hlanded' hkey]

theorem OncePerDay.githubDay {landing : List LandedEvent} (h : OncePerDay landing) (sourceDate : Day) :
    ((githubDay landing sourceDate).map (·.eventId)).Nodup := by
  have hkeys : ((landing.filter (·.sourceDate = sourceDate)).map fun event =>
      (event.sourceDate, event.eventId)).Nodup := h.sublist (List.filter_sublist.map _)
  have hsources := List.Nodup.of_map _ hkeys
  unfold MiniLakehouse.githubDay
  rw [List.map_map]
  apply (List.nodup_map_iff_inj_on hsources).mpr
  intro event hevent other hother hid
  have hdate : event.sourceDate = sourceDate := of_decide_eq_true (List.mem_filter.mp hevent).2
  have hdate' : other.sourceDate = sourceDate := of_decide_eq_true (List.mem_filter.mp hother).2
  exact List.inj_on_of_nodup_map hkeys hevent hother (Prod.ext (hdate.trans hdate'.symm) hid)

/-- The deliveries of an event are ordered. -/
theorem OncePerDay.delivery_inj {landing : List LandedEvent} (h : OncePerDay landing)
    {event other : GithubEvent} (hevent : event ∈ curatedRows landing)
    (hother : other ∈ curatedRows landing) (hid : event.eventId = other.eventId)
    (horder : deliveryOrder event = deliveryOrder other) : event = other := by
  have hhour : event.sourceHour = other.sourceHour := (Prod.mk.inj (toLex.injective horder)).1
  exact h.eq hevent hother hid (by rw [GithubEvent.sourceDate, GithubEvent.sourceDate, hhour])

theorem LatestDelivery.unique {landing : List LandedEvent} (h : OncePerDay landing)
    {event other : GithubEvent} (hevent : LatestDelivery landing event)
    (hother : LatestDelivery landing other) (hid : event.eventId = other.eventId) : event = other :=
  h.delivery_inj hevent.1 hother.1 hid
    (le_antisymm (hother.2 event hevent.1 hid) (hevent.2 other hother.1 hid.symm))

/-! ## Tables of entities -/

/-- A table of current entities: which entity an event mentions, and the row that it makes of it. -/
structure EntityTable (E : Type) where
  entity : GithubEvent → Option Int
  make : Int × GithubEvent → E
  key : E → Int
  rank : E → Instant ×ₗ String
  key_make : ∀ mention, key (make mention) = mention.1
  rank_make : ∀ mention, rank (make mention) = occurrenceOrder mention.2

namespace EntityTable

variable {E : Type} (table : EntityTable E)

/-- The rows of a day. -/
def ofDay (landing : List LandedEvent) (sourceDate : Day) : List E :=
  (latestMentions table.entity (githubDay landing sourceDate)).map table.make

omit [SparkSql] in
theorem mem_mentions {day : List GithubEvent} {mention : Int × GithubEvent} :
    mention ∈ day.filterMap (fun event => (table.entity event).map fun id => (id, event)) ↔
      mention.2 ∈ day ∧ table.entity mention.2 = some mention.1 := by
  constructor
  · intro hmention
    obtain ⟨event, hevent, hsome⟩ := List.mem_filterMap.mp hmention
    obtain ⟨id, hid, rfl⟩ := Option.map_eq_some_iff.mp hsome
    exact ⟨hevent, hid⟩
  · intro hmention
    obtain ⟨hevent, hid⟩ := hmention
    exact List.mem_filterMap.mpr ⟨mention.2, hevent, by rw [hid]; rfl⟩

theorem ofDay_nodup (landing : List LandedEvent) (sourceDate : Day) :
    ((table.ofDay landing sourceDate).map table.key).Nodup := by
  have hkeys : table.key ∘ table.make = Prod.fst := funext table.key_make
  unfold ofDay
  rw [List.map_map, hkeys]
  exact firstInGroup_nodup

/-- The row that a day has for an entity is the one of a latest mention of that day. -/
theorem cell_ofDay {landing : List LandedEvent} {sourceDate : Day} {id : Int} {row : E}
    (h : cell table.key (table.ofDay landing sourceDate) id = some row) :
    ∃ event ∈ githubDay landing sourceDate, table.entity event = some id ∧
      row = table.make (id, event) ∧ ∀ other ∈ githubDay landing sourceDate,
        table.entity other = some id → occurrenceOrder other ≤ occurrenceOrder event := by
  obtain ⟨hrow, hkey⟩ := (cell_eq_some (table.ofDay_nodup landing sourceDate)).mp h
  obtain ⟨mention, hmention, rfl⟩ := List.mem_map.mp hrow
  rw [table.key_make] at hkey
  subst hkey
  obtain ⟨hmem, hfirst⟩ := mem_firstInGroup hmention
  obtain ⟨hevent, hentity⟩ := table.mem_mentions.mp hmem
  refine ⟨mention.2, hevent, hentity, rfl, ?_⟩
  intro other hother hid
  exact hfirst (mention.1, other) (table.mem_mentions.mpr ⟨hother, hid⟩) rfl

/-- A day has a row for every entity that it mentions. -/
theorem cell_ofDay_ne_none {landing : List LandedEvent} {sourceDate : Day} {id : Int}
    {event : GithubEvent} (hevent : event ∈ githubDay landing sourceDate)
    (hid : table.entity event = some id) :
    cell table.key (table.ofDay landing sourceDate) id ≠ none := by
  intro hnone
  have hmention : (id, event) ∈ (githubDay landing sourceDate).filterMap fun event =>
      (table.entity event).map fun id => (id, event) := table.mem_mentions.mpr ⟨hevent, hid⟩
  have hsome : ∃ first ∈ latestMentions table.entity (githubDay landing sourceDate),
      first.1 = id := exists_firstInGroup hmention
  obtain ⟨first, hfirst, hkey⟩ := hsome
  have hfound := (cell_eq_some (table.ofDay_nodup landing sourceDate)).mpr
    ⟨List.mem_map_of_mem hfirst, table.key_make first⟩
  rw [hkey, hnone] at hfound
  cases hfound

/-- The latest mention of all is the latest of its day. -/
theorem cell_ofDay_latest {landing : List LandedEvent} (hunique : OncePerDay landing) {id : Int}
    {event : GithubEvent} (h : LatestMention landing table.entity id event) :
    cell table.key (table.ofDay landing event.sourceDate) id = some (table.make (id, event)) := by
  obtain ⟨⟨hevent, hid⟩, hlatest⟩ := h
  have hday : event ∈ githubDay landing event.sourceDate := mem_githubDay.mpr ⟨hevent, rfl⟩
  obtain ⟨row, hrow⟩ := Option.ne_none_iff_exists'.mp (table.cell_ofDay_ne_none hday hid)
  obtain ⟨other, hother, hid', rfl, hgreatest⟩ := table.cell_ofDay hrow
  obtain ⟨hlanded, hdate⟩ := mem_githubDay.mp hother
  have horder := le_antisymm (hgreatest event hday hid) (hlatest other hlanded hid')
  have hsame : event = other :=
    hunique.eq hevent hlanded (Prod.mk.inj (toLex.injective horder)).2 hdate.symm
  rw [hrow, hsame]

end EntityTable

/-- `actors_current` -/
def actorsCurrent [SparkPatterns] : EntityTable GithubActor where
  entity event := event.actorId
  make := githubActor
  key actor := actor.actorId
  rank := GithubActor.observationOrder
  key_make _ := rfl
  rank_make _ := rfl

/-- `repositories_current` -/
def repositoriesCurrent : EntityTable GithubRepository where
  entity event := event.repositoryId
  make := githubRepository
  key repository := repository.repositoryId
  rank := GithubRepository.observationOrder
  key_make _ := rfl
  rank_make _ := rfl

/-! ## Runs -/

/-- What publications of days leave in a table of rows with a key: the newest of their rows. -/
structure Accumulates {E κ β : Type} [DecidableEq κ] [LinearOrder β] (key : E → κ) (rank : E → β)
    (ofDay : Day → List E) (days : List Day) (rows : List E) : Prop where
  nodup : (rows.map key).Nodup
  newest : ∀ k, cell key rows k = newestOf rank (days.map fun day => cell key (ofDay day) k)

omit [SparkSql] in
theorem Accumulates.start {E κ β : Type} [DecidableEq κ] [LinearOrder β] {key : E → κ} {rank : E → β}
    {ofDay : Day → List E} : Accumulates key rank ofDay [] [] :=
  ⟨List.nodup_nil, fun _ => rfl⟩

omit [SparkSql] in
/-- One more day is merged. -/
theorem Accumulates.merge {E κ β : Type} [DecidableEq κ] [LinearOrder β] {key : E → κ} {rank : E → β}
    {ofDay : Day → List E} {days : List Day} {rows : List E}
    (h : Accumulates key rank ofDay days rows) {day : Day} (hday : ((ofDay day).map key).Nodup)
    (error : Raised) : ∃ merged, mergeNewest key rank error rows (ofDay day) = .ok merged ∧
      Accumulates key rank ofDay (days ++ [day]) merged := by
  have hmerge : ∃ merged, mergeNewest key rank error rows (ofDay day) = .ok merged ∧
      (merged.map key).Nodup ∧ ∀ k, cell key merged k =
        MiniLakehouse.newest rank (cell key rows k) (cell key (ofDay day) k) :=
    mergeNewest_ok error h.nodup hday
  obtain ⟨merged, hmerged, hnodup, hcells⟩ := hmerge
  refine ⟨merged, hmerged, hnodup, ?_⟩
  intro k
  rw [hcells, h.newest, List.map_append, List.map_singleton, newestOf_concat]

/-- The tables after publications of days. -/
structure PublishedDays [SparkPatterns] (landing : List LandedEvent) (days : List Day)
    (tables : GithubTables) : Prop where
  events : Accumulates (fun event => event.eventId) deliveryOrder (githubDay landing) days
    tables.events
  actors : Accumulates actorsCurrent.key actorsCurrent.rank (actorsCurrent.ofDay landing) days
    tables.actors
  repositories : Accumulates repositoriesCurrent.key repositoriesCurrent.rank
    (repositoriesCurrent.ofDay landing) days tables.repositories

/-- **Publications never fail**, and each table accumulates the rows of their days. -/
theorem publishDays_ok [SparkPatterns] {landing : List LandedEvent} (h : OncePerDay landing)
    (days : List Day) :
    ∃ tables, publishDays landing days = .ok tables ∧ PublishedDays landing days tables := by
  induction days using List.reverseRecOn with
  | nil => exact ⟨{}, rfl, .start, .start, .start⟩
  | append_singleton days day ih =>
      obtain ⟨tables, htables, hpublished⟩ := ih
      obtain ⟨events, hevents, hevents'⟩ :=
        hpublished.events.merge (h.githubDay day) mergeMatchedTwice
      obtain ⟨actors, hactors, hactors'⟩ :=
        hpublished.actors.merge (actorsCurrent.ofDay_nodup landing day) mergeMatchedTwice
      obtain ⟨repositories, hrepositories, hrepositories'⟩ :=
        hpublished.repositories.merge (repositoriesCurrent.ofDay_nodup landing day) mergeMatchedTwice
      refine ⟨⟨events, actors, repositories⟩, ?_, hevents', hactors', hrepositories'⟩
      have hstep : publishGithub landing day tables = .ok ⟨events, actors, repositories⟩ := by
        unfold publishGithub
        dsimp only
        rw [hevents, ok_bind]
        exact bind_eq_ok.mpr ⟨actors, hactors, bind_eq_ok.mpr ⟨repositories, hrepositories, rfl⟩⟩
      unfold publishDays at htables ⊢
      rw [List.foldlM_append, htables, ok_bind, List.foldlM_cons, hstep]
      rfl

/-! ## What a complete run leaves -/

section Complete

variable {landing : List LandedEvent} {days : List Day}

/-- The table of events has the latest delivery of each event. -/
theorem Accumulates.latestDelivery {rows : List GithubEvent} (hunique : OncePerDay landing)
    (hcovers : CoversDays landing days)
    (h : Accumulates (fun event => event.eventId) deliveryOrder (githubDay landing) days rows)
    (event : GithubEvent) : event ∈ rows ↔ LatestDelivery landing event := by
  have hoffered : ∀ other, some other ∈ days.map (fun day =>
      cell (fun event => event.eventId) (githubDay landing day) event.eventId) ↔
        other ∈ curatedRows landing ∧ other.eventId = event.eventId := by
    intro other
    constructor
    · intro hother
      obtain ⟨day, -, hcell⟩ := List.mem_map.mp hother
      obtain ⟨hmem, hid⟩ := (cell_eq_some (hunique.githubDay day)).mp hcell
      exact ⟨(mem_githubDay.mp hmem).1, hid⟩
    · intro hother
      obtain ⟨hmem, hid⟩ := hother
      obtain ⟨landed, hlanded, rfl⟩ := List.mem_map.mp hmem
      refine List.mem_map.mpr ⟨landed.sourceDate, hcovers landed hlanded, ?_⟩
      apply (cell_eq_some (hunique.githubDay landed.sourceDate)).mpr
      exact ⟨mem_githubDay.mpr ⟨hmem, rfl⟩, hid⟩
  constructor
  · intro hevent
    have hcell := (cell_eq_some h.nodup).mpr ⟨hevent, rfl⟩
    rw [h.newest] at hcell
    obtain ⟨hmem, hgreatest⟩ := newestOf_eq_some hcell
    refine ⟨((hoffered event).mp hmem).1, ?_⟩
    intro other hother hid
    exact hgreatest other ((hoffered other).mpr ⟨hother, hid⟩)
  · intro hlatest
    have hkept := newestOf_eq_of_greatest ((hoffered event).mpr ⟨hlatest.1, rfl⟩) (by
      intro other hother
      obtain ⟨hmem, hid⟩ := (hoffered other).mp hother
      exact ⟨hlatest.2 other hmem hid, hunique.delivery_inj hmem hlatest.1 hid⟩)
    rw [← h.newest] at hkept
    exact ((cell_eq_some h.nodup).mp hkept).1

variable {E : Type} {table : EntityTable E} {rows : List E}

/-- A row of a table of entities is the one of a latest mention. -/
theorem Accumulates.latestMention (hcovers : CoversDays landing days)
    (h : Accumulates table.key table.rank (table.ofDay landing) days rows) {row : E}
    (hrow : row ∈ rows) : ∃ event, LatestMention landing table.entity (table.key row) event ∧
      row = table.make (table.key row, event) := by
  have hcell := (cell_eq_some h.nodup).mpr ⟨hrow, rfl⟩
  rw [h.newest] at hcell
  obtain ⟨hmem, hgreatest⟩ := newestOf_eq_some hcell
  obtain ⟨day, -, hday⟩ := List.mem_map.mp hmem
  obtain ⟨event, hevent, hid, hmake, -⟩ := table.cell_ofDay hday
  refine ⟨event, ⟨⟨(mem_githubDay.mp hevent).1, hid⟩, ?_⟩, hmake⟩
  intro other hother hid'
  obtain ⟨landed, hlanded, rfl⟩ := List.mem_map.mp hother
  have hpresent : landed.curated ∈ githubDay landing landed.sourceDate :=
    mem_githubDay.mpr ⟨hother, rfl⟩
  obtain ⟨best, hbest⟩ := Option.ne_none_iff_exists'.mp (table.cell_ofDay_ne_none hpresent hid')
  obtain ⟨chosen, -, -, rfl, hchosen⟩ := table.cell_ofDay hbest
  have hoffered := hgreatest (table.make (table.key row, chosen))
    (List.mem_map.mpr ⟨landed.sourceDate, hcovers landed hlanded, hbest⟩)
  rw [hmake, table.key_make, table.rank_make, table.rank_make] at hoffered
  exact (hchosen _ hpresent hid').trans hoffered

/-- Every entity that is mentioned has a row. -/
theorem Accumulates.mentioned (hcovers : CoversDays landing days)
    (h : Accumulates table.key table.rank (table.ofDay landing) days rows) {event : GithubEvent}
    (hevent : event ∈ curatedRows landing) {id : Int} (hid : table.entity event = some id) :
    ∃ row ∈ rows, table.key row = id := by
  obtain ⟨landed, hlanded, rfl⟩ := List.mem_map.mp hevent
  have hpresent : landed.curated ∈ githubDay landing landed.sourceDate :=
    mem_githubDay.mpr ⟨hevent, rfl⟩
  have hoffered := table.cell_ofDay_ne_none hpresent hid
  cases hcell : cell table.key rows id with
  | none =>
      rw [h.newest] at hcell
      exact absurd (newestOf_eq_none.mp hcell _
        (List.mem_map_of_mem (hcovers landed hlanded))) hoffered
  | some row => exact ⟨row, ((cell_eq_some h.nodup).mp hcell)⟩

/-- A latest mention whose day is published first is the one that is kept. -/
theorem Accumulates.first_kept (hunique : OncePerDay landing) {event : GithubEvent} {id : Int}
    (hlatest : LatestMention landing table.entity id event)
    (h : Accumulates table.key table.rank (table.ofDay landing) (event.sourceDate :: days) rows) :
    table.make (id, event) ∈ rows := by
  have hkept : newestOf table.rank ((event.sourceDate :: days).map fun day =>
      cell table.key (table.ofDay landing day) id) = some (table.make (id, event)) := by
    rw [List.map_cons, table.cell_ofDay_latest hunique hlatest]
    apply newestOf_cons_top
    intro other hother
    obtain ⟨day, -, hcell⟩ := List.mem_map.mp hother
    obtain ⟨chosen, hchosen, hid, rfl, -⟩ := table.cell_ofDay hcell
    rw [table.rank_make, table.rank_make]
    exact hlatest.2 chosen (mem_githubDay.mp hchosen).1 hid
  rw [← h.newest] at hkept
  exact ((cell_eq_some h.nodup).mp hkept).1

end Complete

/-! ## Convergence -/

/-- The rows are those of latest mentions, one for each entity that is mentioned. -/
structure EntityTable.Follows {E : Type} (table : EntityTable E) (landing : List LandedEvent)
    (rows : List E) : Prop where
  once : (rows.map table.key).Nodup
  latest : ∀ row ∈ rows, ∃ event, LatestMention landing table.entity (table.key row) event ∧
    row = table.make (table.key row, event)
  mentioned : ∀ event ∈ curatedRows landing, ∀ id, table.entity event = some id →
    ∃ row ∈ rows, table.key row = id

/-- Each row is the one that the event it names makes of its entity. -/
def EntityTable.Agrees {E : Type} (table : EntityTable E) (events : List GithubEvent)
    (rows : List E) : Prop :=
  ∀ row ∈ rows, ∃ event ∈ events, table.entity event = some (table.key row) ∧
    row = table.make (table.key row, event)

/-- The latest delivery of an event that is a latest mention says the same of the entity. -/
def EntityTable.Settled {E : Type} (table : EntityTable E) (landing : List LandedEvent) : Prop :=
  ∀ id event delivery, LatestMention landing table.entity id event →
    LatestDelivery landing delivery → delivery.eventId = event.eventId →
      table.entity delivery = some id ∧ table.make (id, delivery) = table.make (id, event)

section Entities

variable {E : Type} {table : EntityTable E} {landing : List LandedEvent} {rows : List E}

theorem EntityTable.Follows.of_accumulates {days : List Day} (hcovers : CoversDays landing days)
    (h : Accumulates table.key table.rank (table.ofDay landing) days rows) :
    table.Follows landing rows where
  once := h.nodup
  latest _ hrow := h.latestMention hcovers hrow
  mentioned _ hevent _ hid := h.mentioned hcovers hevent hid

theorem EntityTable.Settled.agrees (h : table.Settled landing) {events : List GithubEvent}
    (hevents : ∀ event, event ∈ events ↔ LatestDelivery landing event)
    (hdelivered : ∀ event ∈ curatedRows landing, ∃ delivery, LatestDelivery landing delivery ∧
      delivery.eventId = event.eventId)
    (hfollows : table.Follows landing rows) : table.Agrees events rows := by
  intro row hrow
  obtain ⟨event, hlatest, hmake⟩ := hfollows.latest row hrow
  obtain ⟨delivery, hdelivery, hid⟩ := hdelivered event hlatest.1.1
  obtain ⟨hentity, hsame⟩ := h _ event delivery hlatest hdelivery hid
  exact ⟨delivery, (hevents delivery).mpr hdelivery, hentity, hmake.trans hsame.symm⟩

/-- Settled tables have the same rows. -/
theorem EntityTable.Settled.subset (h : table.Settled landing) {rows' : List E}
    (hdelivered : ∀ event ∈ curatedRows landing, ∃ delivery, LatestDelivery landing delivery ∧
      delivery.eventId = event.eventId)
    (hfollows : table.Follows landing rows) (hfollows' : table.Follows landing rows') {row : E}
    (hrow : row ∈ rows) : row ∈ rows' := by
  obtain ⟨event, hlatest, hmake⟩ := hfollows.latest row hrow
  obtain ⟨row', hrow', hkey⟩ := hfollows'.mentioned event hlatest.1.1 _ hlatest.1.2
  obtain ⟨event', hlatest', hmake'⟩ := hfollows'.latest row' hrow'
  rw [hkey] at hlatest' hmake'
  have horder := le_antisymm (hlatest'.2 event hlatest.1.1 hlatest.1.2)
    (hlatest.2 event' hlatest'.1.1 hlatest'.1.2)
  have hid : event.eventId = event'.eventId := (Prod.mk.inj (toLex.injective horder)).2
  obtain ⟨delivery, hdelivery, hdelivered⟩ := hdelivered event hlatest.1.1
  have hsame := (h _ event delivery hlatest hdelivery hdelivered).2
  have hsame' := (h _ event' delivery hlatest' hdelivery (hdelivered.trans hid)).2
  rw [hmake, ← hsame, hsame', ← hmake']
  exact hrow'

theorem EntityTable.Settled.perm (h : table.Settled landing) {rows' : List E}
    (hdelivered : ∀ event ∈ curatedRows landing, ∃ delivery, LatestDelivery landing delivery ∧
      delivery.eventId = event.eventId)
    (hfollows : table.Follows landing rows) (hfollows' : table.Follows landing rows') :
    rows.Perm rows' := by
  apply (List.perm_ext_iff_of_nodup (List.Nodup.of_map _ hfollows.once)
    (List.Nodup.of_map _ hfollows'.once)).mpr
  intro row
  exact ⟨h.subset hdelivered hfollows hfollows', h.subset hdelivered hfollows' hfollows⟩

end Entities

/-- Every landed event has a latest delivery. -/
theorem exists_latestDelivery {landing : List LandedEvent} {event : GithubEvent}
    (h : event ∈ curatedRows landing) :
    ∃ delivery, LatestDelivery landing delivery ∧ delivery.eventId = event.eventId := by
  have hsome : ∃ first ∈ firstInGroup (fun event : GithubEvent => event.eventId) deliveryOrder
      (curatedRows landing), first.eventId = event.eventId := exists_firstInGroup h
  obtain ⟨first, hfirst, hid⟩ := hsome
  obtain ⟨hmem, hgreatest⟩ := mem_firstInGroup hfirst
  exact ⟨first, ⟨hmem, hgreatest⟩, hid⟩

variable [SparkPatterns]

/-- The tables follow the landing table. -/
structure FollowsLanding (landing : List LandedEvent) (tables : GithubTables) : Prop where
  once : (tables.events.map fun event => event.eventId).Nodup
  events : ∀ event, event ∈ tables.events ↔ LatestDelivery landing event
  actors : actorsCurrent.Follows landing tables.actors
  repositories : repositoriesCurrent.Follows landing tables.repositories

/-- The entities agree with the events that they name. -/
def EntitiesAgree (tables : GithubTables) : Prop :=
  actorsCurrent.Agrees tables.events tables.actors ∧
    repositoriesCurrent.Agrees tables.events tables.repositories

/-- The same rows, in whatever order. -/
def SameTables (tables tables' : GithubTables) : Prop :=
  tables.events.Perm tables'.events ∧ tables.actors.Perm tables'.actors ∧
    tables.repositories.Perm tables'.repositories

/-- The tables that publications of every landed day end with. -/
def EndsWith (landing : List LandedEvent) (tables : GithubTables) : Prop :=
  ∃ days, CoversDays landing days ∧ publishDays landing days = .ok tables

/-- Whatever the order, complete publications end with the same tables, which follow the landing
table and agree among themselves. -/
def Converges (landing : List LandedEvent) : Prop :=
  ∀ tables, EndsWith landing tables → FollowsLanding landing tables ∧ EntitiesAgree tables ∧
    ∀ tables', EndsWith landing tables' → SameTables tables tables'

theorem EndsWith.published {landing : List LandedEvent} (hunique : OncePerDay landing)
    {tables : GithubTables} (h : EndsWith landing tables) :
    ∃ days, CoversDays landing days ∧ PublishedDays landing days tables := by
  obtain ⟨days, hcovers, hrun⟩ := h
  obtain ⟨found, hfound, hpublished⟩ := publishDays_ok hunique days
  obtain rfl := Except.ok.inj (hfound.symm.trans hrun)
  exact ⟨days, hcovers, hpublished⟩

theorem EndsWith.follows {landing : List LandedEvent} (hunique : OncePerDay landing)
    {tables : GithubTables} (h : EndsWith landing tables) : FollowsLanding landing tables := by
  obtain ⟨days, hcovers, hpublished⟩ := h.published hunique
  exact ⟨hpublished.events.nodup, hpublished.events.latestDelivery hunique hcovers,
    .of_accumulates hcovers hpublished.actors, .of_accumulates hcovers hpublished.repositories⟩

/-- A latest mention is what some order of publications ends with. -/
theorem exists_kept {landing : List LandedEvent} (hunique : OncePerDay landing)
    (event : GithubEvent) : ∃ tables, EndsWith landing tables ∧
      (∀ id, LatestMention landing actorsCurrent.entity id event →
        actorsCurrent.make (id, event) ∈ tables.actors) ∧
      ∀ id, LatestMention landing repositoriesCurrent.entity id event →
        repositoriesCurrent.make (id, event) ∈ tables.repositories := by
  have hcovers : CoversDays landing
      (event.sourceDate :: landing.map fun landed => landed.sourceDate) :=
    fun landed hlanded => List.mem_cons_of_mem _ (List.mem_map_of_mem hlanded)
  obtain ⟨tables, htables, hpublished⟩ := publishDays_ok hunique
    (event.sourceDate :: landing.map fun landed => landed.sourceDate)
  exact ⟨tables, ⟨_, hcovers, htables⟩, fun _ hlatest => hpublished.actors.first_kept hunique hlatest,
    fun _ hlatest => hpublished.repositories.first_kept hunique hlatest⟩

omit [SparkPatterns] in
/-- Where the tables agree whatever the order, a latest mention is settled. -/
theorem EntityTable.settled_of_agrees {E : Type} {table : EntityTable E} {landing : List LandedEvent}
    (hunique : OncePerDay landing) (h : ∀ id event, LatestMention landing table.entity id event →
      ∃ events rows, (∀ event, event ∈ events ↔ LatestDelivery landing event) ∧
        table.Agrees events rows ∧ table.make (id, event) ∈ rows) : table.Settled landing := by
  intro id event delivery hlatest hdelivery hid
  obtain ⟨events, rows, hevents, hagrees, hkept⟩ := h id event hlatest
  obtain ⟨found, hfound, hentity, hmake⟩ := hagrees _ hkept
  rw [table.key_make] at hentity hmake
  have horder : occurrenceOrder event = occurrenceOrder found := by
    have hrank := congrArg table.rank hmake
    rwa [table.rank_make, table.rank_make] at hrank
  have hsame : found = delivery := ((hevents found).mp hfound).unique hunique hdelivery
    ((Prod.mk.inj (toLex.injective horder)).2.symm.trans hid.symm)
  subst hsame
  exact ⟨hentity, hmake.symm⟩

end Publications

namespace GithubRehearsal

/-- Spark on texts without blanks, and on payloads without members. -/
instance plainSql : SparkSql where
  getJsonObject _ _ := none
  upper := id
  trim := id
  substr text _ _ := text
  tryCastBigint _ := none
  tryCastDecimal _ _ _ := none
  castDecimal _ _ value := some value
  toDate _ := none
  toTimestamp _ := none

instance plainPatterns : SparkPatterns where
  lower := id
  rlike _ _ := false

/-- An event of an actor, as it was delivered on a day. -/
def delivered (day : Day) (login : String) : LandedEvent where
  eventId := "1"
  eventType := "WatchEvent"
  actorId := some 7
  actorLogin := some login
  repositoryId := none
  repositoryName := none
  payloadJson := "\x7b\x7d"
  isPublic := true
  occurredAt := 0
  sourceFile := "2026-01-01-0.json.gz"
  sourceHour := day * dayLength
  ingestedAt := day * dayLength
  rawEventJson := "\x7b\x7d"

/-- The event recurs with another login. -/
def recurring : List LandedEvent := [delivered 1 "alice", delivered 2 "carol"]

def actor (login : String) : GithubActor := ⟨7, some login, false, 0, "1"⟩

theorem recurring_oncePerDay : OncePerDay recurring := by decide

theorem published_forward : publishDays recurring [1, 2] =
    .ok ⟨[(delivered 2 "carol").curated], [actor "alice"], []⟩ := by rfl

theorem published_backward : publishDays recurring [2, 1] =
    .ok ⟨[(delivered 2 "carol").curated], [actor "carol"], []⟩ := by rfl

end GithubRehearsal

end MiniLakehouse
