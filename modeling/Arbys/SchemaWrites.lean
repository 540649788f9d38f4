import Arbys.Schema

/-!
# Which writes the schema refuses

Every market in a database of this program stands for one outcome and was made
up with it, and every account is named by its id (`Placed`). Where that holds,
each function that writes is refused exactly when a row it refers to by id is
missing or an id it draws is taken; the unique constraints refuse nothing but
a group that names an outcome twice.
-/

namespace Arbys

open Tables

namespace Schema

/-! ## What a write leaves of the reference tables -/

/-- The tables no write updates or deletes from. -/
def Row.placing : Row → Bool
  | .venue _ | .market _ | .outcome _ | .paperAccount _ => true
  | _ => false

/-- Markets and outcomes come in pairs, and an account is its own name. -/
structure Placed (db : Database) : Prop where
  market : ∀ m, .market m ∈ db.rows →
    m.id = placeholderMarketId m.venueMarketId ∧ db.Has (.outcome m.venueMarketId)
  outcome : ∀ o, .outcome o ∈ db.rows → o.marketId = placeholderMarketId o.id
  account : ∀ a, .paperAccount a ∈ db.rows → a.name = a.id

theorem placeholderMarketId_inj {o p : OutcomeId}
    (h : placeholderMarketId o = placeholderMarketId p) : o = p :=
  (String.append_right_inj _).mp h

theorem mem_of_placing_eq {db db' : Database}
    (h : db'.rows.filter Row.placing = db.rows.filter Row.placing) {r : Row}
    (hr : r.placing = true) : r ∈ db'.rows ↔ r ∈ db.rows := by
  have hmem : r ∈ db'.rows.filter Row.placing ↔ r ∈ db.rows.filter Row.placing := by rw [h]
  simpa [hr] using hmem

/-- A key of the reference tables is stored in one if it is in the other. -/
theorem has_of_placing_eq {db db' : Database}
    (h : db'.rows.filter Row.placing = db.rows.filter Row.placing) {k : RowId}
    (hk : ∀ r : Row, r.key = some k → r.placing = true) : db'.Has k ↔ db.Has k := by
  rw [Store.has_iff, Store.has_iff]
  refine exists_congr fun r => and_congr_left fun hr => ?_
  exact mem_of_placing_eq h (hk r hr)

theorem placing_of_key_venue (v : VenueId) (r : Row) (h : r.key = some (.venue v)) :
    r.placing = true := by
  cases r <;> simp_all [Row.placing]

theorem placing_of_key_outcome (o : OutcomeId) (r : Row) (h : r.key = some (.outcome o)) :
    r.placing = true := by
  cases r <;> simp_all [Row.placing]

theorem Placed.of_placing_eq {db db' : Database} (hdb : Placed db)
    (h : db'.rows.filter Row.placing = db.rows.filter Row.placing) : Placed db' where
  market m hm := by
    obtain ⟨hid, hhas⟩ := hdb.market m ((mem_of_placing_eq h rfl).mp hm)
    exact ⟨hid, (has_of_placing_eq h (placing_of_key_outcome _)).mpr hhas⟩
  outcome o ho := hdb.outcome o ((mem_of_placing_eq h rfl).mp ho)
  account a ha := hdb.account a ((mem_of_placing_eq h rfl).mp ha)

theorem placing_insert {db db' : Database} {r : Row} (h : db'.rows = db.rows ++ [r])
    (hr : r.placing = false) :
    db'.rows.filter Row.placing = db.rows.filter Row.placing := by
  rw [h, List.filter_append, List.filter_singleton, hr]
  exact List.append_nil _

theorem placing_delete {db db' : Database} {p : Row → Bool}
    (h : db'.rows = db.rows.filter fun r => !p r) (hp : ∀ r, p r = true → r.placing = false) :
    db'.rows.filter Row.placing = db.rows.filter Row.placing := by
  rw [h]
  exact Store.filter_filter_of_untold hp db.rows

/-! ## Outcomes -/

theorem has_iff_market {db : Database} {id : String} :
    db.Has (.market id) ↔ ∃ m, .market m ∈ db.rows ∧ m.id = id := by
  rw [Store.has_iff]
  constructor
  · rintro ⟨r, hr, hk⟩
    cases r with
    | market m => exact ⟨m, hr, by simpa using hk⟩
    | _ => simp at hk
  · rintro ⟨m, hm, rfl⟩
    exact ⟨_, hm, rfl⟩

/-- The market of an outcome that is not stored is not stored either. -/
theorem Placed.not_has_market {db : Database} (hdb : Placed db) {o : OutcomeId}
    (ho : ¬db.Has (.outcome o)) : ¬db.Has (.market (placeholderMarketId o)) := by
  rw [has_iff_market]
  rintro ⟨m, hm, hid⟩
  obtain ⟨hplaced, hhas⟩ := hdb.market m hm
  rw [hplaced] at hid
  exact ho (placeholderMarketId_inj hid ▸ hhas)

/-- The rows an outcome is placed by, where it has to be. -/
def placeholderRows (db : Database) (o : OutcomeId) (v : VenueId) : List Row :=
  if db.Has (.outcome o) then []
  else [.market (placeholderMarket o v), .outcome (placeholderOutcome o)]

theorem admits_placeholderMarket {db : Database} (hdb : Placed db) {o : OutcomeId} {v : VenueId}
    (ho : ¬db.Has (.outcome o)) :
    constraints.Admits db.rows (.market (placeholderMarket o v)) ↔ db.Has (.venue v) := by
  have hfresh : RowId.market (placeholderMarketId o) ∉ constraints.keys db.rows :=
    hdb.not_has_market ho
  have hunique : UniqueKey.marketVenueNativeId v o ∉ constraints.taken db.rows := by
    intro hmem
    obtain ⟨r, hr, hu⟩ := Constraints.mem_taken.mp hmem
    cases r with
    | market m =>
        simp only [constraints_uniques, Row.uniques, List.mem_singleton,
          UniqueKey.marketVenueNativeId.injEq] at hu
        exact ho (hu.2 ▸ (hdb.market m hr).2)
    | _ => simp at hu
  simp [Constraints.Admits, placeholderMarket, hfresh, hunique, Store.Has]

theorem admits_placeholderOutcome {db db' : Database} (hdb : Placed db) {o : OutcomeId}
    {v : VenueId} (ho : ¬db.Has (.outcome o))
    (h : db'.rows = db.rows ++ [.market (placeholderMarket o v)]) :
    constraints.Admits db'.rows (.outcome (placeholderOutcome o)) := by
  have hfresh : RowId.outcome o ∉ constraints.keys db'.rows := by
    intro hmem
    rcases (Store.has_of_rows_append h).mp hmem with hold | hnew
    · exact ho hold
    · simp [Constraints.keys] at hnew
  have hunique : UniqueKey.outcomeMarketLabel (placeholderMarketId o) o ∉
      constraints.taken db'.rows := by
    intro hmem
    obtain ⟨r, hr, hu⟩ := Constraints.mem_taken.mp hmem
    rw [h] at hr
    cases r with
    | outcome p =>
        simp only [constraints_uniques, Row.uniques, List.mem_singleton,
          UniqueKey.outcomeMarketLabel.injEq] at hu
        have hp : Row.outcome p ∈ db.rows := by simpa using hr
        have hid : o = p.id := placeholderMarketId_inj (hu.1.trans (hdb.outcome p hp))
        exact ho (hid ▸ Store.has_of_mem hp rfl)
    | _ => simp at hu
  have hmarket : RowId.market (placeholderMarketId o) ∈ constraints.keys db'.rows :=
    (Store.has_of_rows_append h).mpr (.inr (by simp [Constraints.keys, placeholderMarket]))
  simp [Constraints.Admits, placeholderOutcome, hfresh, hunique, hmarket]

/-- **An outcome is placed** unless it is stored or its venue is not. -/
theorem exists_ensureOutcomePlaceholder {db : Database} (hdb : Placed db) {o : OutcomeId}
    {v : VenueId} (h : db.Has (.outcome o) ∨ db.Has (.venue v)) :
    ∃ db', ensureOutcomePlaceholder o v db = some db' ∧
      db'.rows = db.rows ++ placeholderRows db o v := by
  unfold ensureOutcomePlaceholder placeholderRows
  by_cases ho : db.Has (.outcome o)
  · obtain ⟨r, hr⟩ := Option.isSome_iff_exists.mp (Store.get?_isSome_iff.mpr ho)
    exact ⟨db, by rw [hr], by rw [if_pos ho, List.append_nil]⟩
  · have hv : db.Has (.venue v) := h.resolve_left ho
    obtain ⟨mid, hmid, hmidrows⟩ := Store.exists_insert ((admits_placeholderMarket hdb ho).mpr hv)
    obtain ⟨db', hdb', hrows⟩ := Store.exists_insert (admits_placeholderOutcome hdb ho hmidrows)
    refine ⟨db', ?_, ?_⟩
    · rw [Store.get?_eq_none_iff.mpr ho, Store.get?_eq_none_iff.mpr (hdb.not_has_market ho)]
      simp only [hmid, hdb', Option.bind_eq_bind, Option.bind_some]
    · rw [if_neg ho, hrows, hmidrows, List.append_assoc]
      rfl

theorem ensureOutcomePlaceholder_isSome_iff {db : Database} (hdb : Placed db) {o : OutcomeId}
    {v : VenueId} :
    (ensureOutcomePlaceholder o v db).isSome ↔ db.Has (.outcome o) ∨ db.Has (.venue v) := by
  constructor
  · intro h
    by_contra hnot
    obtain ⟨ho, hv⟩ := not_or.mp hnot
    have hrefused : db.insert (.market (placeholderMarket o v)) = none := by
      rw [← Option.not_isSome_iff_eq_none, Store.insert_isSome_iff,
        admits_placeholderMarket hdb ho]
      exact hv
    rw [ensureOutcomePlaceholder, Store.get?_eq_none_iff.mpr ho,
      Store.get?_eq_none_iff.mpr (hdb.not_has_market ho)] at h
    simp [hrefused] at h
  · intro h
    obtain ⟨db', hdb', _⟩ := exists_ensureOutcomePlaceholder hdb h
    rw [hdb']
    rfl

theorem rows_of_ensureOutcomePlaceholder {db db' : Database} (hdb : Placed db) {o : OutcomeId}
    {v : VenueId} (h : ensureOutcomePlaceholder o v db = some db') :
    db'.rows = db.rows ++ placeholderRows db o v := by
  have hok := (ensureOutcomePlaceholder_isSome_iff hdb).mp (Option.isSome_of_eq_some h)
  obtain ⟨db'', hdb'', hrows⟩ := exists_ensureOutcomePlaceholder hdb hok
  rw [h, Option.some.injEq] at hdb''
  rw [hdb'', hrows]

/-- After it, the outcome is stored, and nothing else that can be referred to
but its market. -/
theorem has_ensureOutcomePlaceholder {db db' : Database} (hdb : Placed db) {o : OutcomeId}
    {v : VenueId} (h : ensureOutcomePlaceholder o v db = some db') (k : RowId) :
    db'.Has k ↔ db.Has k ∨ k = .outcome o ∨ k = .market (placeholderMarketId o) := by
  have hrows := rows_of_ensureOutcomePlaceholder hdb h
  rw [Store.has_of_rows_append hrows, placeholderRows]
  by_cases ho : db.Has (.outcome o)
  · rw [if_pos ho]
    constructor
    · exact fun hk => hk.imp_right fun hk => absurd hk List.not_mem_nil
    · rintro (hk | rfl | rfl)
      · exact .inl hk
      · exact .inl ho
      · obtain ⟨r, hr, hkey⟩ := Store.has_iff.mp ho
        cases r with
        | outcome p =>
            simp only [constraints_key, Row.key, Option.some.injEq, RowId.outcome.injEq] at hkey
            refine .inl (Store.has_of_ref hr ?_)
            simp [hdb.outcome p hr, hkey]
        | _ => simp at hkey
  · rw [if_neg ho]
    refine or_congr_right ?_
    simp [Constraints.keys, placeholderMarket, placeholderOutcome, or_comm]

theorem Placed.ensureOutcomePlaceholder {db db' : Database} (hdb : Placed db) {o : OutcomeId}
    {v : VenueId} (h : ensureOutcomePlaceholder o v db = some db') : Placed db' := by
  have hrows := rows_of_ensureOutcomePlaceholder hdb h
  have hhas := has_ensureOutcomePlaceholder hdb h
  have hnew : ∀ r ∈ placeholderRows db o v,
      r = .market (placeholderMarket o v) ∨ r = .outcome (placeholderOutcome o) := by
    intro r hr
    unfold placeholderRows at hr
    split at hr
    · cases hr
    · simpa using hr
  constructor
  · intro m hm
    rw [hrows] at hm
    rcases List.mem_append.mp hm with hold | hadded
    · obtain ⟨hid, hout⟩ := hdb.market m hold
      exact ⟨hid, (hhas _).mpr (.inl hout)⟩
    · rcases hnew _ hadded with heq | heq
      · cases heq
        exact ⟨rfl, (hhas _).mpr (.inr (.inl rfl))⟩
      · cases heq
  · intro p hp
    rw [hrows] at hp
    rcases List.mem_append.mp hp with hold | hadded
    · exact hdb.outcome p hold
    · rcases hnew _ hadded with heq | heq
      · cases heq
      · cases heq
        rfl
  · intro a ha
    rw [hrows] at ha
    rcases List.mem_append.mp ha with hold | hadded
    · exact hdb.account a hold
    · rcases hnew _ hadded with heq | heq <;> cases heq

/-! ## Groups -/

theorem has_iff_eventGroup {db : Database} {id : GroupId} :
    db.Has (.eventGroup id) ↔ ∃ g, .eventGroup g ∈ db.rows ∧ g.id = id := by
  rw [Store.has_iff]
  constructor
  · rintro ⟨r, hr, hk⟩
    cases r with
    | eventGroup g => exact ⟨g, hr, by simpa using hk⟩
    | _ => simp at hk
  · rintro ⟨g, hg, rfl⟩
    exact ⟨_, hg, rfl⟩

theorem key_of_isLegOf {gid : GroupId} {r : Row} (h : isLegOf gid r = true) : r.key = none := by
  cases r with
  | eventGroupLeg l => rfl
  | _ => cases h

theorem placing_of_isLegOf {gid : GroupId} {r : Row} (h : isLegOf gid r = true) :
    r.placing = false := by
  cases r with
  | eventGroupLeg l => rfl
  | _ => cases h

theorem placing_of_isGroup {gid : GroupId} {r : Row} (h : isGroup gid r = true) :
    r.placing = false := by
  cases r with
  | eventGroup l => rfl
  | _ => cases h

theorem placing_of_retired {gid : GroupId} {r : Row}
    (h : (isLegOf gid r || isGroup gid r) = true) : r.placing = false := by
  rcases Bool.or_eq_true_iff.mp h with hleg | hgroup
  · exact placing_of_isLegOf hleg
  · exact placing_of_isGroup hgroup

/-- Nothing refers to a leg, so legs can always go. -/
theorem exists_delete_legs (db : Database) (gid : GroupId) :
    ∃ db', db.delete (isLegOf gid) = some db' ∧
      db'.rows = db.rows.filter fun r => !isLegOf gid r :=
  Store.exists_delete_of_keyless fun _ hr => key_of_isLegOf hr

theorem has_delete_legs {db db' : Database} {gid : GroupId}
    (h : db'.rows = db.rows.filter fun r => !isLegOf gid r) (k : RowId) :
    db'.Has k ↔ db.Has k := by
  rw [Store.has_iff, Store.has_iff, h]
  constructor
  · rintro ⟨r, hr, hk⟩
    exact ⟨r, (List.mem_filter.mp hr).1, hk⟩
  · rintro ⟨r, hr, hk⟩
    refine ⟨r, List.mem_filter.mpr ⟨hr, ?_⟩, hk⟩
    cases hleg : isLegOf gid r with
    | false => rfl
    | true =>
        rw [constraints_key, key_of_isLegOf hleg] at hk
        cases hk

/-- **A retirement is never refused**: what refers to a group is its legs, and
they go first. -/
theorem exists_deleteEventGroup (db : Database) (gid : GroupId) :
    ∃ db', deleteEventGroup gid db = some db' ∧
      db'.rows = db.rows.filter fun r => !(isLegOf gid r || isGroup gid r) := by
  obtain ⟨mid, hmid, hmidrows⟩ := exists_delete_legs db gid
  have hgroups : ∃ db', mid.delete (isGroup gid) = some db' ∧
      db'.rows = mid.rows.filter fun r => !isGroup gid r := by
    refine Store.exists_delete fun r hr _ k hk r' hr' hk' => ?_
    cases r' with
    | eventGroup g =>
        simp only [constraints_key, Row.key, Option.some.injEq] at hk'
        subst hk'
        -- What refers to a group is a leg of it, and no leg of this one is left.
        cases r with
        | eventGroupLeg l =>
            have hid : g.id = l.eventGroupId := by simpa using hk
            have hother : l.eventGroupId ≠ gid := by
              have := (List.mem_filter.mp (hmidrows ▸ hr)).2
              simpa [isLegOf] using this
            simpa [isGroup, hid] using hother
        | _ => simp at hk
    | _ => rfl
  obtain ⟨db', hdb', hrows⟩ := hgroups
  refine ⟨db', ?_, ?_⟩
  · simp only [deleteEventGroup, hmid, hdb', Option.bind_eq_bind, Option.bind_some]
  · rw [hrows, hmidrows, List.filter_filter]
    refine List.filter_congr fun r _ => ?_
    rw [Bool.not_or, Bool.and_comm]

/-- Every outcome the legs name that is not stored is first named at a venue
that is. -/
def Placeable (db : Database) (legs : List EventGroupLeg) : Prop :=
  ∀ leg ∈ legs, db.Has (.outcome leg.outcomeId) ∨
    ∃ first ∈ legs.find? (fun l => l.outcomeId = leg.outcomeId), db.Has (.venue first.venueId)

theorem placeable_nil (db : Database) : Placeable db [] := by
  intro leg hleg
  cases hleg

/-- An outcome that is named is named first somewhere. -/
theorem exists_first {legs : List EventGroupLeg} {o : OutcomeId}
    (h : ∃ l ∈ legs, l.outcomeId = o) :
    ∃ first, legs.find? (fun l => l.outcomeId = o) = some first ∧ first.outcomeId = o := by
  obtain ⟨l, hl, hlo⟩ := h
  have hsome : (legs.find? fun l => l.outcomeId = o).isSome := by
    rw [List.find?_isSome]
    exact ⟨l, hl, decide_eq_true hlo⟩
  obtain ⟨first, hf⟩ := Option.isSome_iff_exists.mp hsome
  exact ⟨first, hf, by simpa using List.find?_some hf⟩

theorem Placeable.left {db : Database} {legs more : List EventGroupLeg}
    (h : Placeable db (legs ++ more)) : Placeable db legs := by
  intro leg hleg
  refine (h leg (List.mem_append_left _ hleg)).imp_right ?_
  rintro ⟨first, hf, hv⟩
  obtain ⟨first', hf', _⟩ := exists_first ⟨leg, hleg, rfl⟩
  rw [List.find?_append, hf', Option.some_or, Option.mem_some_iff] at hf
  exact ⟨first', hf', hf ▸ hv⟩

/-- Legs are placed one after another: the later ones find the outcomes of the
earlier ones there. -/
theorem placeable_append {db db' : Database} {legs more : List EventGroupLeg}
    (hout : ∀ o, db'.Has (.outcome o) ↔ db.Has (.outcome o) ∨ ∃ l ∈ legs, l.outcomeId = o)
    (hven : ∀ v, db'.Has (.venue v) ↔ db.Has (.venue v)) :
    Placeable db (legs ++ more) ↔ Placeable db legs ∧ Placeable db' more := by
  have hnone : ∀ o, (¬∃ l ∈ legs, l.outcomeId = o) →
      legs.find? (fun l => l.outcomeId = o) = none := by
    intro o hnot
    rw [List.find?_eq_none]
    intro l hl hlo
    exact hnot ⟨l, hl, by simpa using hlo⟩
  constructor
  · refine fun h => ⟨h.left, fun leg hleg => ?_⟩
    by_cases hthere : db'.Has (.outcome leg.outcomeId)
    · exact .inl hthere
    · obtain ⟨hnot, hunnamed⟩ := not_or.mp (mt (hout _).mpr hthere)
      obtain ⟨first, hf, hv⟩ := (h leg (List.mem_append_right _ hleg)).resolve_left hnot
      rw [List.find?_append, hnone _ hunnamed, Option.none_or] at hf
      exact .inr ⟨first, hf, (hven _).mpr hv⟩
  · rintro ⟨hlegs, hmore⟩ leg hleg
    by_cases hin : ∃ l ∈ legs, l.outcomeId = leg.outcomeId
    · obtain ⟨first, hf, hfo⟩ := exists_first hin
      have hfirstleg := hlegs first (List.mem_of_find?_eq_some hf)
      rw [hfo] at hfirstleg
      refine hfirstleg.imp_right ?_
      rintro ⟨first', hf', hv⟩
      exact ⟨first', by rw [List.find?_append, hf', Option.some_or]; rfl, hv⟩
    · have hleg' : leg ∈ more := by
        refine (List.mem_append.mp hleg).resolve_left fun hleg => hin ⟨leg, hleg, rfl⟩
      rcases hmore leg hleg' with hthere | ⟨first, hf, hv⟩
      · exact .inl (((hout _).mp hthere).resolve_right hin)
      · refine .inr ⟨first, ?_, (hven _).mp hv⟩
        rw [List.find?_append, hnone _ hin, Option.none_or]
        exact hf

theorem placeable_singleton {db : Database} {leg : EventGroupLeg} :
    Placeable db [leg] ↔ db.Has (.outcome leg.outcomeId) ∨ db.Has (.venue leg.venueId) := by
  simp [Placeable]

/-- No leg of the group names the outcome yet. -/
def LegFree (db : Database) (gid : GroupId) (o : OutcomeId) : Prop :=
  ∀ l, .eventGroupLeg l ∈ db.rows → ¬(l.eventGroupId = gid ∧ l.leg.outcomeId = o)

/-- Whether one more leg of a group can be stored. -/
theorem admits_legRow {db : Database} {group : EventGroup} {leg : EventGroupLeg} :
    constraints.Admits db.rows (.eventGroupLeg (legRow group leg)) ↔
      LegFree db group.id leg.outcomeId ∧
      db.Has (.eventGroup group.id) ∧ db.Has (.outcome leg.outcomeId) := by
  have hunique : UniqueKey.eglegGroupOutcome group.id leg.outcomeId ∉ constraints.taken db.rows ↔
      LegFree db group.id leg.outcomeId := by
    rw [Constraints.mem_taken]
    constructor
    · rintro h l hl ⟨hg, ho⟩
      exact h ⟨_, hl, by simp [hg, ho]⟩
    · rintro h ⟨r, hr, hu⟩
      cases r with
      | eventGroupLeg l =>
          have heq : group.id = l.eventGroupId ∧ leg.outcomeId = l.leg.outcomeId := by
            simpa using hu
          exact h l hr ⟨heq.1.symm, heq.2.symm⟩
      | _ => simp at hu
  simp [Constraints.Admits, legRow, hunique, Store.Has]

theorem eventGroupLeg_notMem_placeholderRows {db : Database} {o : OutcomeId} {v : VenueId}
    {l : EventGroupLegRow} : .eventGroupLeg l ∉ placeholderRows db o v := by
  unfold placeholderRows
  split <;> simp

/-- What a turn of the loop over the legs leaves. -/
structure LegAdded (group : EventGroup) (leg : EventGroupLeg) (db db' : Database) : Prop where
  placeable : db.Has (.outcome leg.outcomeId) ∨ db.Has (.venue leg.venueId)
  free : LegFree db group.id leg.outcomeId
  rows : db'.rows = db.rows ++ placeholderRows db leg.outcomeId leg.venueId ++
    [.eventGroupLeg (legRow group leg)]
  placed : Placed db'

theorem has_of_ensured {db mid : Database} {o : OutcomeId} {v : VenueId} (hdb : Placed db)
    (h : ensureOutcomePlaceholder o v db = some mid) : mid.Has (.outcome o) :=
  (has_ensureOutcomePlaceholder hdb h _).mpr (.inr (.inl rfl))

theorem legFree_ensured {db mid : Database} {o : OutcomeId} {v : VenueId} (hdb : Placed db)
    (h : ensureOutcomePlaceholder o v db = some mid) {gid : GroupId} {p : OutcomeId} :
    LegFree mid gid p ↔ LegFree db gid p := by
  refine forall_congr' fun l => ?_
  rw [rows_of_ensureOutcomePlaceholder hdb h, List.mem_append,
    or_iff_left eventGroupLeg_notMem_placeholderRows]

theorem legAdded {db db' : Database} (hdb : Placed db) {group : EventGroup} {leg : EventGroupLeg}
    (h : addLeg group db leg = some db') : LegAdded group leg db db' := by
  obtain ⟨mid, hmid, hlast⟩ := Option.bind_eq_some_iff.mp h
  have hadmits := Store.insert_isSome_iff.mp (Option.isSome_of_eq_some hlast)
  have hrows := Store.rows_of_insert hlast
  constructor
  · exact (ensureOutcomePlaceholder_isSome_iff hdb).mp (Option.isSome_of_eq_some hmid)
  · exact (legFree_ensured hdb hmid).mp (admits_legRow.mp hadmits).1
  · rw [hrows, rows_of_ensureOutcomePlaceholder hdb hmid]
  · exact (hdb.ensureOutcomePlaceholder hmid).of_placing_eq (placing_insert hrows rfl)

theorem addLeg_isSome_iff {db : Database} (hdb : Placed db) {group : EventGroup}
    (hgroup : db.Has (.eventGroup group.id)) {leg : EventGroupLeg} :
    (addLeg group db leg).isSome ↔
      (db.Has (.outcome leg.outcomeId) ∨ db.Has (.venue leg.venueId)) ∧
        LegFree db group.id leg.outcomeId := by
  constructor
  · intro h
    obtain ⟨db', hdb'⟩ := Option.isSome_iff_exists.mp h
    have hadded := legAdded hdb hdb'
    exact ⟨hadded.placeable, hadded.free⟩
  · rintro ⟨hplace, hfree⟩
    obtain ⟨mid, hmid, _⟩ := exists_ensureOutcomePlaceholder hdb hplace
    have hmidgroup : mid.Has (.eventGroup group.id) :=
      (has_ensureOutcomePlaceholder hdb hmid _).mpr (.inl hgroup)
    have hadmits : constraints.Admits mid.rows (.eventGroupLeg (legRow group leg)) :=
      admits_legRow.mpr ⟨(legFree_ensured hdb hmid).mpr hfree, hmidgroup, has_of_ensured hdb hmid⟩
    show ((ensureOutcomePlaceholder _ _ db).bind _).isSome
    rw [hmid]
    exact Store.insert_isSome_iff.mpr hadmits

namespace LegAdded

variable {group : EventGroup} {leg : EventGroupLeg} {db db' : Database}

theorem has (h : LegAdded group leg db db') (k : RowId) :
    db'.Has k ↔ db.Has k ∨ k ∈ constraints.keys (placeholderRows db leg.outcomeId leg.venueId) := by
  have hrows := h.rows
  rw [List.append_assoc] at hrows
  rw [Store.has_of_rows_append hrows, Constraints.keys_append]
  simp [Constraints.keys]

theorem has_outcome (h : LegAdded group leg db db') (o : OutcomeId) :
    db'.Has (.outcome o) ↔ db.Has (.outcome o) ∨ leg.outcomeId = o := by
  rw [h.has, placeholderRows]
  by_cases hthere : db.Has (.outcome leg.outcomeId)
  · rw [if_pos hthere]
    constructor
    · exact fun ho => ho.imp_right fun ho => absurd ho List.not_mem_nil
    · rintro (ho | rfl)
      · exact .inl ho
      · exact .inl hthere
  · rw [if_neg hthere]
    simp [Constraints.keys, placeholderMarket, placeholderOutcome, eq_comm]

theorem has_venue (h : LegAdded group leg db db') (v : VenueId) :
    db'.Has (.venue v) ↔ db.Has (.venue v) := by
  rw [h.has, placeholderRows, or_iff_left]
  split <;> simp [Constraints.keys]

theorem has_eventGroup (h : LegAdded group leg db db') (gid : GroupId) :
    db'.Has (.eventGroup gid) ↔ db.Has (.eventGroup gid) := by
  rw [h.has, placeholderRows, or_iff_left]
  split <;> simp [Constraints.keys]

theorem legFree (h : LegAdded group leg db db') (o : OutcomeId) :
    LegFree db' group.id o ↔ LegFree db group.id o ∧ leg.outcomeId ≠ o := by
  have hmem : ∀ l, .eventGroupLeg l ∈ db'.rows ↔
      .eventGroupLeg l ∈ db.rows ∨ l = legRow group leg := by
    intro l
    rw [h.rows, List.mem_append, List.mem_append, or_assoc,
      or_iff_right eventGroupLeg_notMem_placeholderRows, List.mem_singleton,
      Row.eventGroupLeg.injEq]
  simp only [LegFree, hmem]
  constructor
  · intro hfree
    exact ⟨fun l hl => hfree l (.inl hl), fun ho => hfree _ (.inr rfl) ⟨rfl, ho⟩⟩
  · rintro ⟨hfree, hne⟩ l (hl | rfl)
    · exact hfree l hl
    · exact fun hl => hne hl.2

end LegAdded

/-- What the loop over the legs leaves. -/
structure LegsAdded (legs : List EventGroupLeg) (db db' : Database) : Prop where
  placed : Placed db'
  has_outcome : ∀ o, db'.Has (.outcome o) ↔ db.Has (.outcome o) ∨ ∃ l ∈ legs, l.outcomeId = o
  has_venue : ∀ v, db'.Has (.venue v) ↔ db.Has (.venue v)

/-- **The legs of a group** are stored exactly if they can be placed and no
outcome is named twice. -/
theorem foldlM_addLeg_isSome_iff {group : EventGroup} (legs : List EventGroupLeg) {db : Database}
    (hdb : Placed db) (hgroup : db.Has (.eventGroup group.id)) :
    (legs.foldlM (addLeg group) db).isSome ↔
      Placeable db legs ∧ (legs.map (·.outcomeId)).Nodup ∧
        ∀ leg ∈ legs, LegFree db group.id leg.outcomeId := by
  induction legs generalizing db with
  | nil => simp [placeable_nil]
  | cons leg legs ih =>
      have hfirst : (addLeg group db leg).isSome ↔ _ := addLeg_isSome_iff hdb hgroup
      rw [List.foldlM_cons]
      cases hadd : addLeg group db leg with
      | none =>
          rw [hadd] at hfirst
          refine iff_of_false (by simp) ?_
          rintro ⟨hplace, -, hfree⟩
          refine absurd (hfirst.mpr ⟨?_, hfree leg List.mem_cons_self⟩) (by simp)
          simpa using hplace leg List.mem_cons_self
      | some db' =>
          have hadded := legAdded hdb hadd
          have hrest := ih hadded.placed ((hadded.has_eventGroup _).mpr hgroup)
          have hsplit : Placeable db ([leg] ++ legs) ↔ Placeable db [leg] ∧ Placeable db' legs :=
            placeable_append (fun o => by simpa using hadded.has_outcome o) hadded.has_venue
          rw [List.singleton_append] at hsplit
          show (legs.foldlM (addLeg group) db').isSome ↔ _
          rw [hrest, hsplit, placeable_singleton, List.map_cons, List.nodup_cons]
          simp only [hadded.legFree, List.forall_mem_cons, List.mem_map, not_exists, not_and]
          constructor
          · rintro ⟨hplace, hnodup, hfree⟩
            exact ⟨⟨hadded.placeable, hplace⟩,
              ⟨fun l hl heq => (hfree l hl).2 heq.symm, hnodup⟩,
              hadded.free, fun l hl => (hfree l hl).1⟩
          · rintro ⟨⟨-, hplace⟩, ⟨hnew, hnodup⟩, -, hfree⟩
            exact ⟨hplace, hnodup, fun l hl => ⟨hfree l hl, fun heq => hnew l hl heq.symm⟩⟩

theorem legsAdded {group : EventGroup} {legs : List EventGroupLeg} {db db' : Database}
    (hdb : Placed db) (h : legs.foldlM (addLeg group) db = some db') : LegsAdded legs db db' := by
  induction legs generalizing db with
  | nil =>
      cases h
      exact ⟨hdb, by simp, fun v => Iff.rfl⟩
  | cons leg legs ih =>
      obtain ⟨mid, hmid, hrest⟩ := Option.bind_eq_some_iff.mp h
      have hadded := legAdded hdb hmid
      have hlater := ih hadded.placed hrest
      refine ⟨hlater.placed, fun o => ?_, fun v => ?_⟩
      · rw [hlater.has_outcome, hadded.has_outcome, or_assoc]
        simp
      · rw [hlater.has_venue, hadded.has_venue]

/-- The group row of a registration, written or refreshed. -/
def writeGroup (group : EventGroup) (db : Database) : Option Database :=
  match db.get? (.eventGroup group.id) with
  | none => db.insert (.eventGroup ⟨group.id, group.title, group.startTime, group.source⟩)
  | some _ => some (db.update (refreshGroup group) (keeps_refreshGroup group))

theorem upsertEventGroup_eq (group : EventGroup) (db : Database) :
    upsertEventGroup group db =
      ((writeGroup group db).bind fun db => db.delete (isLegOf group.id)).bind
        (group.legs.foldlM (addLeg group)) := by
  unfold upsertEventGroup writeGroup
  cases db.get? (.eventGroup group.id) with
  | none => exact (Option.bind_assoc ..).symm
  | some r => rfl

theorem refreshGroup_cases {p : Row → Bool} (hp : ∀ g, p (.eventGroup g) = true)
    (group : EventGroup) (r : Row) : refreshGroup group r = r ∨
      (p r = true ∧ p (refreshGroup group r) = true) := by
  cases r with
  | eventGroup g =>
      refine .inr ⟨hp g, ?_⟩
      rw [refreshGroup]
      split <;> exact hp _
  | _ => exact .inl rfl

/-- What is there when the legs are about to be added. -/
structure LegsCleared (group : EventGroup) (db top mid : Database) : Prop where
  written : writeGroup group db = some top
  rows : mid.rows = top.rows.filter fun r => !isLegOf group.id r
  placing : mid.rows.filter Row.placing = db.rows.filter Row.placing
  has_group : mid.Has (.eventGroup group.id)

theorem exists_writeGroup (group : EventGroup) (db : Database) :
    ∃ top, writeGroup group db = some top ∧
      top.rows.filter Row.placing = db.rows.filter Row.placing ∧
      top.Has (.eventGroup group.id) := by
  unfold writeGroup
  by_cases hthere : db.Has (.eventGroup group.id)
  · obtain ⟨r, hr⟩ := Option.isSome_iff_exists.mp (Store.get?_isSome_iff.mpr hthere)
    rw [hr]
    refine ⟨_, rfl, ?_, ?_⟩
    · exact (Store.confined_update (p := fun r => !r.placing) _
        (refreshGroup_cases (fun _ => rfl) group)).filter (fun r hr => by simp [hr]) rfl
    · exact (Store.has_update ..).mpr hthere
  · have hadmits : constraints.Admits db.rows
        (.eventGroup ⟨group.id, group.title, group.startTime, group.source⟩) := by
      have hfresh : RowId.eventGroup group.id ∉ constraints.keys db.rows := hthere
      simp [Constraints.Admits, hfresh]
    obtain ⟨top, htop, hrows⟩ := Store.exists_insert hadmits
    rw [Store.get?_eq_none_iff.mpr hthere]
    refine ⟨top, htop, placing_insert hrows rfl, ?_⟩
    exact (Store.has_of_rows_append hrows).mpr (.inr (by simp [Constraints.keys]))

/-- The group is written and its old legs go, in any database. -/
theorem exists_legsCleared (group : EventGroup) (db : Database) :
    ∃ top mid, ((writeGroup group db).bind fun db => db.delete (isLegOf group.id)) = some mid ∧
      LegsCleared group db top mid := by
  obtain ⟨top, htop, hplacing, hhas⟩ := exists_writeGroup group db
  obtain ⟨mid, hmid, hmidrows⟩ := exists_delete_legs top group.id
  refine ⟨top, mid, by rw [htop, Option.bind_some, hmid], htop, hmidrows, ?_, ?_⟩
  · rw [placing_delete hmidrows fun r hr => placing_of_isLegOf hr, hplacing]
  · exact (has_delete_legs hmidrows _).mpr hhas

theorem LegsCleared.legFree {group : EventGroup} {db top mid : Database}
    (h : LegsCleared group db top mid) (o : OutcomeId) : LegFree mid group.id o := by
  rintro l hl ⟨hid, -⟩
  rw [h.rows] at hl
  have := (List.mem_filter.mp hl).2
  simp [isLegOf, hid] at this

theorem LegsCleared.placeable {group : EventGroup} {db top mid : Database}
    (h : LegsCleared group db top mid) (legs : List EventGroupLeg) :
    Placeable mid legs ↔ Placeable db legs := by
  unfold Placeable
  simp only [has_of_placing_eq h.placing (placing_of_key_outcome _),
    has_of_placing_eq h.placing (placing_of_key_venue _)]

/-- **A registration is refused** exactly if its group names an outcome twice,
or names one that is not stored at a venue that is not. -/
theorem upsertEventGroup_isSome_iff {db : Database} (hdb : Placed db) {group : EventGroup} :
    (upsertEventGroup group db).isSome ↔
      Placeable db group.legs ∧ (group.legs.map (·.outcomeId)).Nodup := by
  obtain ⟨top, mid, hmid, hcleared⟩ := exists_legsCleared group db
  rw [upsertEventGroup_eq, hmid]
  show (group.legs.foldlM (addLeg group) mid).isSome ↔ _
  rw [foldlM_addLeg_isSome_iff _ (hdb.of_placing_eq hcleared.placing) hcleared.has_group,
    hcleared.placeable]
  exact and_congr_right fun _ => and_iff_left fun leg _ => hcleared.legFree leg.outcomeId

theorem legsAdded_upsertEventGroup {db db' : Database} (hdb : Placed db) {group : EventGroup}
    (h : upsertEventGroup group db = some db') : LegsAdded group.legs db db' := by
  obtain ⟨top, mid, hmid, hcleared⟩ := exists_legsCleared group db
  rw [upsertEventGroup_eq, hmid] at h
  have hadded := legsAdded (hdb.of_placing_eq hcleared.placing) h
  refine ⟨hadded.placed, fun o => ?_, fun v => ?_⟩
  · rw [hadded.has_outcome, has_of_placing_eq hcleared.placing (placing_of_key_outcome o)]
  · rw [hadded.has_venue, has_of_placing_eq hcleared.placing (placing_of_key_venue v)]

/-- The batch of a pass of discovery, in one transaction. -/
def upsertEventGroups (groups : List EventGroup) (db : Database) : Option Database :=
  groups.foldlM (fun db group => upsertEventGroup group db) db

theorem upsertEventGroups_isSome_iff {groups : List EventGroup} {db : Database}
    (hdb : Placed db) :
    (upsertEventGroups groups db).isSome ↔
      Placeable db (groups.flatMap (·.legs)) ∧
        ∀ group ∈ groups, (group.legs.map (·.outcomeId)).Nodup := by
  unfold upsertEventGroups
  induction groups generalizing db with
  | nil => simp [placeable_nil]
  | cons group groups ih =>
      have hfirst : (upsertEventGroup group db).isSome ↔ _ := upsertEventGroup_isSome_iff hdb
      rw [List.foldlM_cons, List.flatMap_cons]
      cases hup : upsertEventGroup group db with
      | none =>
          rw [hup] at hfirst
          refine iff_of_false (by simp) ?_
          rintro ⟨hplace, hnodup⟩
          exact absurd (hfirst.mpr ⟨hplace.left, hnodup group List.mem_cons_self⟩) (by simp)
      | some db' =>
          have hadded := legsAdded_upsertEventGroup hdb hup
          rw [hup] at hfirst
          obtain ⟨hplace, hnodup⟩ := hfirst.mp rfl
          show (groups.foldlM (fun db group => upsertEventGroup group db) db').isSome ↔ _
          rw [ih hadded.placed, placeable_append hadded.has_outcome hadded.has_venue,
            List.forall_mem_cons]
          constructor
          · exact fun ⟨hrest, hnodups⟩ => ⟨⟨hplace, hrest⟩, hnodup, hnodups⟩
          · exact fun ⟨⟨_, hrest⟩, _, hnodups⟩ => ⟨hrest, hnodups⟩

/-! ## The broker's writes -/

/-- Nothing but outcomes has been placed. -/
structure Extends (db db' : Database) : Prop where
  placed : Placed db'
  has : ∀ k, (∀ o, k ≠ .outcome o) → (∀ id, k ≠ .market id) → (db'.Has k ↔ db.Has k)
  has_outcome : ∀ o, db.Has (.outcome o) → db'.Has (.outcome o)

theorem Extends.has_account {db db' : Database} (h : Extends db db') (a : AccountId) :
    db'.Has (.paperAccount a) ↔ db.Has (.paperAccount a) :=
  h.has _ (fun _ => nofun) fun _ => nofun

theorem Extends.has_venue {db db' : Database} (h : Extends db db') (v : VenueId) :
    db'.Has (.venue v) ↔ db.Has (.venue v) :=
  h.has _ (fun _ => nofun) fun _ => nofun

theorem Extends.has_order {db db' : Database} (h : Extends db db') (id : String) :
    db'.Has (.paperOrder id) ↔ db.Has (.paperOrder id) :=
  h.has _ (fun _ => nofun) fun _ => nofun

theorem Extends.has_ticket {db db' : Database} (h : Extends db db') (id : TicketId) :
    db'.Has (.paperTicket id) ↔ db.Has (.paperTicket id) :=
  h.has _ (fun _ => nofun) fun _ => nofun

theorem Extends.trans {db mid db' : Database} (h : Extends db mid) (h' : Extends mid db') :
    Extends db db' where
  placed := h'.placed
  has k ho hm := (h'.has k ho hm).trans (h.has k ho hm)
  has_outcome o ho := h'.has_outcome o (h.has_outcome o ho)

theorem Extends.foldlM {α : Type*} {step : Database → α → Option Database} {as : List α}
    (hstep : ∀ s a s', Placed s → step s a = some s' → Extends s s') {db db' : Database}
    (hdb : Placed db) (h : as.foldlM step db = some db') : Extends db db' :=
  Store.foldlM_inv (fun s a s' hs ha => hs.trans (hstep s a s' hs.placed ha))
    ⟨hdb, fun _ _ _ => Iff.rfl, fun _ => id⟩ h

theorem extends_ensured {db db' : Database} (hdb : Placed db) {o : OutcomeId} {v : VenueId}
    (h : ensureOutcomePlaceholder o v db = some db') : Extends db db' where
  placed := hdb.ensureOutcomePlaceholder h
  has k ho hm := by
    rw [has_ensureOutcomePlaceholder hdb h, or_iff_left]
    exact not_or.mpr ⟨ho o, hm _⟩
  has_outcome p hp := (has_ensureOutcomePlaceholder hdb h _).mpr (.inl hp)

/-- A new row that nothing can refer to. -/
theorem extends_insert {db db' : Database} (hdb : Placed db) {r : Row}
    (h : db.insert r = some db') (hplacing : r.placing = false) (hkey : r.key = none) :
    Extends db db' := by
  have hrows := Store.rows_of_insert h
  have hhas : ∀ k, db'.Has k ↔ db.Has k := by
    intro k
    rw [Store.has_of_rows_append hrows, or_iff_left]
    rw [Constraints.keys, List.filterMap_cons, constraints_key, hkey]
    exact List.not_mem_nil
  exact ⟨hdb.of_placing_eq (placing_insert hrows hplacing), fun k _ _ => hhas k,
    fun o ho => (hhas _).mpr ho⟩

theorem extends_update {db : Database} (hdb : Placed db) {f : Row → Row}
    (hf : constraints.Keeps f)
    (hcases : ∀ r, f r = r ∨ ((!r.placing) = true ∧ (!(f r).placing) = true)) :
    Extends db (db.update f hf) where
  placed := hdb.of_placing_eq
    ((Store.confined_update hf hcases).filter (fun r hr => by simp [hr]) rfl)
  has _ _ _ := Store.has_update ..
  has_outcome _ ho := (Store.has_update ..).mpr ho

section Columns

variable {p : Row → Bool}

theorem setAmount_cases (hp : ∀ b, p (.paperBalance b) = true) (a : AccountId) (v : VenueId)
    (amount : ℚ) (r : Row) : setAmount a v amount r = r ∨
      (p r = true ∧ p (setAmount a v amount r) = true) := by
  cases r with
  | paperBalance b =>
      refine .inr ⟨hp b, ?_⟩
      rw [setAmount]
      split <;> exact hp _
  | _ => exact .inl rfl

theorem setPosition_cases (hp : ∀ b, p (.paperPosition b) = true) (a : AccountId) (v : VenueId)
    (o : OutcomeId) (position : PositionRow) (r : Row) : setPosition a v o position r = r ∨
      (p r = true ∧ p (setPosition a v o position r) = true) := by
  cases r with
  | paperPosition b =>
      refine .inr ⟨hp b, ?_⟩
      rw [setPosition]
      split <;> exact hp _
  | _ => exact .inl rfl

theorem setStatus_cases (hp : ∀ b, p (.paperTicket b) = true) (t : TicketId) (status : String)
    (reason : Option String) (r : Row) : setStatus t status reason r = r ∨
      (p r = true ∧ p (setStatus t status reason r) = true) := by
  cases r with
  | paperTicket b =>
      refine .inr ⟨hp b, ?_⟩
      rw [setStatus]
      split <;> exact hp _
  | _ => exact .inl rfl

end Columns

theorem admits_balance {db : Database} {a : AccountId} {v : VenueId} {amount : ℚ}
    (h : db.rows.any (isBalance a v) = false) :
    constraints.Admits db.rows (.paperBalance ⟨a, v, amount⟩) ↔
      db.Has (.paperAccount a) ∧ db.Has (.venue v) := by
  have hunique : UniqueKey.paperBalance a v ∉ constraints.taken db.rows := by
    intro hmem
    obtain ⟨r, hr, hu⟩ := Constraints.mem_taken.mp hmem
    have hnot := List.any_eq_false.mp h r hr
    cases r with
    | paperBalance b =>
        have heq : a = b.accountId ∧ v = b.venueId := by simpa using hu
        simp [isBalance, heq] at hnot
    | _ => simp at hu
  simp [Constraints.Admits, hunique, Store.Has]

theorem upsertPaperBalance_isSome_iff {db : Database} {a : AccountId} {v : VenueId} {amount : ℚ} :
    (upsertPaperBalance a v amount db).isSome ↔
      db.Has (.paperAccount a) ∧ db.Has (.venue v) := by
  unfold upsertPaperBalance
  cases hany : db.rows.any (isBalance a v) with
  | false => rw [if_neg Bool.false_ne_true, Store.insert_isSome_iff, admits_balance hany]
  | true =>
      rw [if_pos rfl]
      refine iff_of_true rfl ?_
      obtain ⟨r, hr, hbal⟩ := List.any_eq_true.mp hany
      cases r with
      | paperBalance b =>
          have heq : b.accountId = a ∧ b.venueId = v := by simpa [isBalance] using hbal
          obtain ⟨rfl, rfl⟩ := heq
          exact ⟨Store.has_of_ref hr (by simp), Store.has_of_ref hr (by simp)⟩
      | _ => cases hbal

theorem extends_balance {db db' : Database} (hdb : Placed db) {a : AccountId} {v : VenueId}
    {amount : ℚ} (h : upsertPaperBalance a v amount db = some db') : Extends db db' := by
  unfold upsertPaperBalance at h
  split at h
  · cases h
    exact extends_update hdb _ (setAmount_cases (fun _ => rfl) a v _)
  · exact extends_insert hdb h rfl rfl

theorem admits_position {db : Database} {a : AccountId} {v : VenueId} {o : OutcomeId}
    {position : PositionRow} (h : db.rows.any (isPosition a v o) = false) :
    constraints.Admits db.rows (.paperPosition ⟨a, v, o, position⟩) ↔
      db.Has (.paperAccount a) ∧ db.Has (.venue v) ∧ db.Has (.outcome o) := by
  have hunique : UniqueKey.paperPosition a v o ∉ constraints.taken db.rows := by
    intro hmem
    obtain ⟨r, hr, hu⟩ := Constraints.mem_taken.mp hmem
    have hnot := List.any_eq_false.mp h r hr
    cases r with
    | paperPosition b =>
        have heq : a = b.accountId ∧ v = b.venueId ∧ o = b.outcomeId := by simpa using hu
        simp [isPosition, heq] at hnot
    | _ => simp at hu
  simp [Constraints.Admits, hunique, Store.Has]

theorem upsertPaperPosition_isSome_iff {db : Database} (hdb : Placed db) {a : AccountId}
    {v : VenueId} {o : OutcomeId} {position : PositionRow} :
    (upsertPaperPosition a v o position db).isSome ↔
      db.Has (.paperAccount a) ∧ db.Has (.venue v) := by
  unfold upsertPaperPosition
  cases hmid : ensureOutcomePlaceholder o v db with
  | none =>
      refine iff_of_false (by simp) ?_
      rintro ⟨-, hv⟩
      obtain ⟨mid, hsome, _⟩ := exists_ensureOutcomePlaceholder hdb (.inr hv)
      rw [hmid] at hsome
      cases hsome
  | some mid =>
      have hext := extends_ensured hdb hmid
      rw [← hext.has_account, ← hext.has_venue]
      show (if mid.rows.any (isPosition a v o) then _ else _ : Option Database).isSome ↔ _
      cases hany : mid.rows.any (isPosition a v o) with
      | false =>
          rw [if_neg Bool.false_ne_true, Store.insert_isSome_iff, admits_position hany]
          exact ⟨fun h => ⟨h.1, h.2.1⟩, fun h => ⟨h.1, h.2, has_of_ensured hdb hmid⟩⟩
      | true =>
          rw [if_pos rfl]
          refine iff_of_true rfl ?_
          obtain ⟨r, hr, hpos⟩ := List.any_eq_true.mp hany
          cases r with
          | paperPosition b =>
              have heq : b.accountId = a ∧ b.venueId = v ∧ b.outcomeId = o := by
                simpa [isPosition] using hpos
              obtain ⟨rfl, rfl, rfl⟩ := heq
              exact ⟨Store.has_of_ref hr (by simp), Store.has_of_ref hr (by simp)⟩
          | _ => cases hpos

theorem extends_position {db db' : Database} (hdb : Placed db) {a : AccountId} {v : VenueId}
    {o : OutcomeId} {position : PositionRow}
    (h : upsertPaperPosition a v o position db = some db') : Extends db db' := by
  obtain ⟨mid, hmid, hlast⟩ := Option.bind_eq_some_iff.mp h
  have hext := extends_ensured hdb hmid
  refine hext.trans ?_
  split at hlast
  · cases hlast
    exact extends_update hext.placed _ (setPosition_cases (fun _ => rfl) a v o _)
  · exact extends_insert hext.placed hlast rfl rfl

theorem insertPaperSettlement_isSome_iff {db : Database} (hdb : Placed db) {r : PaperSettlement}
    {v : VenueId} :
    (insertPaperSettlement r v db).isSome ↔ db.Has (.outcome r.outcomeId) ∨ db.Has (.venue v) := by
  rw [← ensureOutcomePlaceholder_isSome_iff hdb, insertPaperSettlement]
  cases hmid : ensureOutcomePlaceholder r.outcomeId v db with
  | none => exact Iff.rfl
  | some mid =>
      refine iff_of_true ?_ rfl
      refine Store.insert_isSome_iff.mpr ?_
      have hout := has_of_ensured hdb hmid
      simpa [Constraints.Admits, Store.Has] using hout

theorem extends_settlement {db db' : Database} (hdb : Placed db) {r : PaperSettlement}
    {v : VenueId} (h : insertPaperSettlement r v db = some db') : Extends db db' := by
  obtain ⟨mid, hmid, hlast⟩ := Option.bind_eq_some_iff.mp h
  have hext := extends_ensured hdb hmid
  exact hext.trans (extends_insert hext.placed hlast rfl rfl)

/-! ## Orders, tickets and transfers -/

/-- What an order row needs. -/
def OrderFits (db : Database) (r : PaperOrder) : Prop :=
  ¬db.Has (.paperOrder r.id) ∧ db.Has (.paperAccount r.accountId) ∧ db.Has (.venue r.venueId) ∧
    ∀ t ∈ r.ticketId, db.Has (.paperTicket t)

theorem admits_order {db : Database} {r : PaperOrder} (hout : db.Has (.outcome r.outcomeId)) :
    constraints.Admits db.rows (.paperOrder r) ↔ OrderFits db r := by
  have hkeys : (RowId.outcome r.outcomeId) ∈ constraints.keys db.rows := hout
  cases ht : r.ticketId <;> simp [Constraints.Admits, OrderFits, Store.Has, hkeys, ht]

theorem insertPaperOrder_isSome_iff {db : Database} (hdb : Placed db) {r : PaperOrder} :
    (insertPaperOrder r db).isSome ↔ OrderFits db r := by
  unfold insertPaperOrder
  cases hmid : ensureOutcomePlaceholder r.outcomeId r.venueId db with
  | none =>
      refine iff_of_false (by simp) ?_
      rintro ⟨-, -, hv, -⟩
      obtain ⟨mid, hsome, _⟩ := exists_ensureOutcomePlaceholder hdb (.inr hv)
      rw [hmid] at hsome
      cases hsome
  | some mid =>
      have hext := extends_ensured hdb hmid
      show (mid.insert (.paperOrder r)).isSome ↔ _
      rw [Store.insert_isSome_iff, admits_order (has_of_ensured hdb hmid)]
      simp only [OrderFits, hext.has_order, hext.has_account, hext.has_venue, hext.has_ticket]

/-- What an order row leaves. -/
structure OrderAdded (r : PaperOrder) (db db' : Database) : Prop where
  placed : Placed db'
  has : ∀ k, (∀ o, k ≠ .outcome o) → (∀ id, k ≠ .market id) →
    (db'.Has k ↔ db.Has k ∨ k = .paperOrder r.id)

theorem orderAdded {db db' : Database} (hdb : Placed db) {r : PaperOrder}
    (h : insertPaperOrder r db = some db') : OrderAdded r db db' := by
  obtain ⟨mid, hmid, hlast⟩ := Option.bind_eq_some_iff.mp h
  have hext := extends_ensured hdb hmid
  have hrows := Store.rows_of_insert hlast
  refine ⟨hext.placed.of_placing_eq (placing_insert hrows rfl), fun k ho hm => ?_⟩
  rw [Store.has_of_rows_append hrows, hext.has k ho hm]
  simp [Constraints.keys]

namespace OrderAdded

variable {r : PaperOrder} {db db' : Database}

theorem has_order (h : OrderAdded r db db') (id : String) :
    db'.Has (.paperOrder id) ↔ db.Has (.paperOrder id) ∨ id = r.id := by
  rw [h.has (.paperOrder id) (fun _ => nofun) fun _ => nofun, RowId.paperOrder.injEq]

theorem has_account (h : OrderAdded r db db') (a : AccountId) :
    db'.Has (.paperAccount a) ↔ db.Has (.paperAccount a) :=
  (h.has (.paperAccount a) (fun _ => nofun) fun _ => nofun).trans (or_iff_left nofun)

theorem has_venue (h : OrderAdded r db db') (v : VenueId) :
    db'.Has (.venue v) ↔ db.Has (.venue v) :=
  (h.has (.venue v) (fun _ => nofun) fun _ => nofun).trans (or_iff_left nofun)

theorem has_ticket (h : OrderAdded r db db') (t : TicketId) :
    db'.Has (.paperTicket t) ↔ db.Has (.paperTicket t) :=
  (h.has (.paperTicket t) (fun _ => nofun) fun _ => nofun).trans (or_iff_left nofun)

theorem orderFits (h : OrderAdded r db db') (r' : PaperOrder) :
    OrderFits db' r' ↔ OrderFits db r' ∧ r'.id ≠ r.id := by
  simp only [OrderFits, h.has_order, h.has_account, h.has_venue, h.has_ticket, not_or]
  tauto

end OrderAdded

/-- **The legs of a ticket**, in one transaction. -/
def insertPaperOrders (rs : List PaperOrder) (db : Database) : Option Database :=
  rs.foldlM (fun db r => insertPaperOrder r db) db

theorem insertPaperOrders_isSome_iff {rs : List PaperOrder} {db : Database} (hdb : Placed db) :
    (insertPaperOrders rs db).isSome ↔ (rs.map (·.id)).Nodup ∧ ∀ r ∈ rs, OrderFits db r := by
  unfold insertPaperOrders
  induction rs generalizing db with
  | nil => simp
  | cons r rs ih =>
      rw [List.foldlM_cons, List.forall_mem_cons, ← insertPaperOrder_isSome_iff hdb]
      cases hadd : insertPaperOrder r db with
      | none => simp
      | some db' =>
          have hadded := orderAdded hdb hadd
          show (rs.foldlM (fun db r => insertPaperOrder r db) db').isSome ↔ _
          rw [ih hadded.placed, List.map_cons, List.nodup_cons]
          simp only [hadded.orderFits, List.mem_map, not_exists, not_and, Option.isSome_some, true_and]
          constructor
          · rintro ⟨hnodup, hfit⟩
            exact ⟨⟨fun r' hr' heq => (hfit r' hr').2 heq, hnodup⟩, fun r' hr' => (hfit r' hr').1⟩
          · rintro ⟨⟨hnew, hnodup⟩, hfit⟩
            exact ⟨hnodup, fun r' hr' => ⟨hfit r' hr', hnew r' hr'⟩⟩

/-- A new venue, or an account under its own name. -/
theorem Placed.insert_root {db db' : Database} (hdb : Placed db) {r : Row}
    (hrows : db'.rows = db.rows ++ [r]) (hmarket : ∀ m, r ≠ .market m)
    (houtcome : ∀ o, r ≠ .outcome o) (haccount : ∀ a, r = .paperAccount a → a.name = a.id) :
    Placed db' := by
  have hold : ∀ {r' : Row}, r' ∈ db'.rows → r' ∈ db.rows ∨ r' = r := by
    intro r' hr'
    rw [hrows] at hr'
    simpa using hr'
  refine ⟨fun m hm => ?_, fun o ho => ?_, fun b hb => ?_⟩
  · obtain ⟨hid, hout⟩ := hdb.market m ((hold hm).resolve_right (hmarket m).symm)
    exact ⟨hid, (Store.has_of_rows_append hrows).mpr (.inl hout)⟩
  · exact hdb.outcome o ((hold ho).resolve_right (houtcome o).symm)
  · exact (hold hb).elim (hdb.account b) fun hb => haccount b hb.symm

/-- An account is there after `ensure_paper_account`, which is never refused:
its name is its id, and no other account can have taken it. -/
theorem exists_ensurePaperAccount {db : Database} (hdb : Placed db) (a : AccountId) :
    ∃ db', ensurePaperAccount a db = some db' ∧ Placed db' ∧
      ∀ k, db'.Has k ↔ db.Has k ∨ k = .paperAccount a := by
  unfold ensurePaperAccount
  by_cases hthere : db.Has (.paperAccount a)
  · obtain ⟨r, hr⟩ := Option.isSome_iff_exists.mp (Store.get?_isSome_iff.mpr hthere)
    rw [hr]
    refine ⟨db, rfl, hdb, fun k => ⟨.inl, ?_⟩⟩
    rintro (hk | rfl)
    · exact hk
    · exact hthere
  · have hunique : UniqueKey.paperAccountName a ∉ constraints.taken db.rows := by
      intro hmem
      obtain ⟨r, hr, hu⟩ := Constraints.mem_taken.mp hmem
      cases r with
      | paperAccount b =>
          have hname : a = b.name := by simpa using hu
          exact hthere (Store.has_of_mem hr (by simp [hname, hdb.account b hr]))
      | _ => simp at hu
    have hadmits : constraints.Admits db.rows (.paperAccount ⟨a, a⟩) := by
      have hfresh : RowId.paperAccount a ∉ constraints.keys db.rows := hthere
      simp [Constraints.Admits, hfresh, hunique]
    obtain ⟨db', hdb', hrows⟩ := Store.exists_insert hadmits
    rw [Store.get?_eq_none_iff.mpr hthere]
    have hhas : ∀ k, db'.Has k ↔ db.Has k ∨ k = .paperAccount a := by
      intro k
      rw [Store.has_of_rows_append hrows]
      simp [Constraints.keys]
    refine ⟨db', hdb', hdb.insert_root hrows (fun _ => nofun) (fun _ => nofun) ?_, hhas⟩
    rintro b heq
    cases heq
    rfl

/-- `ensure_paper_account` and `insert_paper_ticket`, as `_write_ticket` and
`_write_missed_descriptor` chain them. -/
def writeTicket (r : PaperTicket) (db : Database) : Option Database := do
  let db ← ensurePaperAccount r.accountId db
  insertPaperTicket r db

theorem writeTicket_isSome_iff {db : Database} (hdb : Placed db) {r : PaperTicket} :
    (writeTicket r db).isSome ↔ ¬db.Has (.paperTicket r.id) := by
  obtain ⟨mid, hmid, _, hhas⟩ := exists_ensurePaperAccount hdb r.accountId
  rw [writeTicket, hmid]
  show (mid.insert (.paperTicket r)).isSome ↔ _
  have haccount : RowId.paperAccount r.accountId ∈ constraints.keys mid.rows :=
    (hhas _).mpr (.inr rfl)
  have hticket : RowId.paperTicket r.id ∈ constraints.keys mid.rows ↔
      db.Has (.paperTicket r.id) := by
    refine (hhas _).trans (or_iff_left nofun)
  simp [Store.insert_isSome_iff, Constraints.Admits, haccount, hticket]

/-- `CashSweepService._persist`: the transfers, and the balance of every venue
they touched. -/
def persistSweep (a : AccountId) (moved : List CashTransfer) (cash : VenueId → ℚ)
    (db : Database) : Option Database := do
  let db ← moved.foldlM (fun db t => insertPaperTransfer ⟨a, t⟩ db) db
  (touched moved).foldlM (fun db v => upsertPaperBalance a v (cash v) db) db

theorem insertPaperTransfer_isSome_iff {db : Database} {r : PaperTransferRow} :
    (insertPaperTransfer r db).isSome ↔ db.Has (.paperAccount r.accountId) ∧
      db.Has (.venue r.transfer.fromVenue) ∧ db.Has (.venue r.transfer.toVenue) := by
  rw [insertPaperTransfer, Store.insert_isSome_iff]
  simp [Constraints.Admits, Store.Has]

theorem mem_touched {moved : List CashTransfer} {v : VenueId} :
    v ∈ touched moved ↔ ∃ t ∈ moved, t.fromVenue = v ∨ t.toVenue = v := by
  rw [touched, List.mem_eraseDups, List.mem_append, List.mem_map, List.mem_map]
  simp only [← exists_or, ← and_or_left]

theorem persistSweep_isSome_iff {db : Database} (hdb : Placed db) {a : AccountId}
    {moved : List CashTransfer} {cash : VenueId → ℚ} :
    (persistSweep a moved cash db).isSome ↔
      ∀ t ∈ moved, db.Has (.paperAccount a) ∧ db.Has (.venue t.fromVenue) ∧
        db.Has (.venue t.toVenue) := by
  have htransfers : (moved.foldlM (fun db t => insertPaperTransfer ⟨a, t⟩ db) db).isSome ↔
      ∀ t ∈ moved, db.Has (.paperAccount a) ∧ db.Has (.venue t.fromVenue) ∧
        db.Has (.venue t.toVenue) := by
    refine Store.foldlM_isSome_iff (fun s t _ => insertPaperTransfer_isSome_iff)
      (fun s t s' hs hstep => ?_) moved hdb
    have hext := extends_insert hs hstep rfl rfl
    exact ⟨hext.placed, fun t' => by simp only [hext.has_account, hext.has_venue]⟩
  rw [← htransfers, persistSweep]
  cases hmid : moved.foldlM (fun db t => insertPaperTransfer ⟨a, t⟩ db) db with
  | none => exact Iff.rfl
  | some mid =>
      have hext : Extends db mid :=
        .foldlM (fun _ _ _ hs hstep => extends_insert hs hstep rfl rfl) hdb hmid
      refine iff_of_true ?_ rfl
      show ((touched moved).foldlM (fun db v => upsertPaperBalance a v (cash v) db) mid).isSome
      refine (Store.foldlM_isSome_iff (fun s v _ => upsertPaperBalance_isSome_iff)
        (fun s v s' hs hstep => ?_) _ hext.placed).mpr fun v hv => ?_
      · have hnext := extends_balance hs hstep
        exact ⟨hnext.placed, fun v' => by simp only [hnext.has_account, hnext.has_venue]⟩
      · rw [hext.has_account, hext.has_venue]
        have hok := htransfers.mp (by rw [hmid]; rfl)
        obtain ⟨t, ht, rfl | rfl⟩ := mem_touched.mp hv
        · exact ⟨(hok t ht).1, (hok t ht).2.1⟩
        · exact ⟨(hok t ht).1, (hok t ht).2.2⟩

/-- One account of `on_settled`: what it has left, and its position closed. -/
def closeAccount (outcomeId : OutcomeId) (v : VenueId) (db : Database)
    (c : AccountId × ℚ × ℚ × ℚ) : Option Database := do
  let db ← upsertPaperBalance c.1 v c.2.1 db
  upsertPaperPosition c.1 v outcomeId ⟨0, 0, c.2.2.1, c.2.2.2⟩ db

/-- `on_settled`. -/
def onSettled (r : PaperSettlement) (v : VenueId) (closed : List (AccountId × ℚ × ℚ × ℚ))
    (db : Database) : Option Database := do
  let db ← closed.foldlM (closeAccount r.outcomeId v) db
  insertPaperSettlement r v db

theorem extends_closeAccount {db db' : Database} (hdb : Placed db) {o : OutcomeId} {v : VenueId}
    {c : AccountId × ℚ × ℚ × ℚ} (h : closeAccount o v db c = some db') : Extends db db' := by
  obtain ⟨mid, hmid, hlast⟩ := Option.bind_eq_some_iff.mp h
  have hext := extends_balance hdb hmid
  exact hext.trans (extends_position hext.placed hlast)

theorem closeAccount_isSome_iff {db : Database} (hdb : Placed db) {o : OutcomeId} {v : VenueId}
    {c : AccountId × ℚ × ℚ × ℚ} :
    (closeAccount o v db c).isSome ↔ db.Has (.paperAccount c.1) ∧ db.Has (.venue v) := by
  have hfirst : (upsertPaperBalance c.1 v c.2.1 db).isSome ↔ _ := upsertPaperBalance_isSome_iff
  rw [← hfirst, closeAccount]
  cases hmid : upsertPaperBalance c.1 v c.2.1 db with
  | none => exact Iff.rfl
  | some mid =>
      have hext := extends_balance hdb hmid
      refine iff_of_true ((upsertPaperPosition_isSome_iff hext.placed).mpr ?_) rfl
      rw [hext.has_account, hext.has_venue]
      exact hfirst.mp (by rw [hmid]; rfl)

theorem onSettled_isSome_iff {db : Database} (hdb : Placed db) {r : PaperSettlement}
    {v : VenueId} {closed : List (AccountId × ℚ × ℚ × ℚ)} :
    (onSettled r v closed db).isSome ↔
      (∀ c ∈ closed, db.Has (.paperAccount c.1) ∧ db.Has (.venue v)) ∧
        (db.Has (.outcome r.outcomeId) ∨ db.Has (.venue v)) := by
  have hclosed : (closed.foldlM (closeAccount r.outcomeId v) db).isSome ↔
      ∀ c ∈ closed, db.Has (.paperAccount c.1) ∧ db.Has (.venue v) := by
    refine Store.foldlM_isSome_iff (fun s c hs => closeAccount_isSome_iff hs)
      (fun s c s' hs hstep => ?_) closed hdb
    have hext := extends_closeAccount hs hstep
    exact ⟨hext.placed, fun c' => by rw [hext.has_account, hext.has_venue]⟩
  rw [← hclosed, onSettled]
  cases hmid : closed.foldlM (closeAccount r.outcomeId v) db with
  | none => simp
  | some mid =>
      have hext : Extends db mid :=
        .foldlM (fun _ _ _ hs hstep => extends_closeAccount hs hstep) hdb hmid
      show (insertPaperSettlement r v mid).isSome ↔ _
      rw [insertPaperSettlement_isSome_iff hext.placed, hext.has_venue, Option.isSome_some,
        eq_self, true_and]
      constructor
      · rintro (ho | hv)
        · cases hc : closed with
          | nil =>
              rw [hc] at hmid
              cases hmid
              exact .inl ho
          | cons c closed =>
              exact .inr (hclosed.mp (by rw [hmid]; rfl) c (hc ▸ List.mem_cons_self)).2
        · exact .inr hv
      · exact fun h => h.imp_left (hext.has_outcome _)

theorem extends_onSettled {db db' : Database} (hdb : Placed db) {r : PaperSettlement}
    {v : VenueId} {closed : List (AccountId × ℚ × ℚ × ℚ)}
    (h : onSettled r v closed db = some db') : Extends db db' := by
  obtain ⟨mid, hmid, hlast⟩ := Option.bind_eq_some_iff.mp h
  have hext : Extends db mid :=
    .foldlM (fun _ _ _ hs hstep => extends_closeAccount hs hstep) hdb hmid
  exact hext.trans (extends_settlement hext.placed hlast)

end Schema

end Arbys
