import Mathlib.Order.Filter.Finite
import Moonbox.Spark.Views

/-!
# View expansion

Where no view refers to itself the engine comes to an end with the names of a query. The commands
on views do not look at the texts they are given, so this stays so only as long as none of them
closes a cycle.
-/

namespace Moonbox.Spark

open Catalog Moonbox.Core Fuel Relational Relation Graph Filter

variable [Names] [IgnoreCase] {σ : Type} {spark : SparkSession σ} {s : Store}
  {catalog : MoonboxCatalog}

/-! ### Injection -/

section Injection

variable {inject : LogicalPlan → Call σ Unit} {id : TableIdentifier}

omit [Names] [IgnoreCase] in
lemma of_read {α : Type} {m : DBIO α} {P : α → Prop} {a : α}
    (hwp : Action.wp m (fun a _ => P a) (fun _ => True) s) (h : read s m = .ok a) : P a := by
  rw [Action.wp, Actor.Handler.wp] at hwp
  rw [read] at h
  split at hwp
  · rename_i a' s' heq
    rw [heq] at h
    cases h
    exact hwp
  · rename_i e s' heq
    rw [heq] at h
    cases h

omit [IgnoreCase] in
lemma read_getTable {caller : User} {db table : String} {d : CatalogTable}
    (h : read s (JdbcCatalog.getTable db table caller) = .ok d) :
    ∃ dbEntity t, Store.database s caller.orgId db = some dbEntity ∧
      Store.table s dbEntity.id table = some t ∧ d.tableType = t.tableType ∧
      d.viewText = t.viewText ∧ d.properties = t.properties := by
  have hwp : Action.wp (JdbcCatalog.getTable db table caller)
      (fun d _ => ∃ dbEntity t, Store.database s caller.orgId db = some dbEntity ∧
        Store.table s dbEntity.id table = some t ∧ d.tableType = t.tableType ∧
        d.viewText = t.viewText ∧ d.properties = t.properties) (fun _ => True) s :=
    wp_getTable_of (fun d dbEntity t hdb ht _ _ htype htext hprops =>
      ⟨dbEntity, t, hdb, ht, htype, htext, hprops⟩) trivial
  exact of_read (a := d) hwp h

omit [Names] [IgnoreCase] in
lemma viewText_eq_ok {o : Option String} {text : String} (h : viewText o = .ok text) :
    o = some text := by
  cases o with
  | none => cases h
  | some text' =>
    cases h
    rfl

/-- The row of a table or view. -/
def tableAt (s : Store) (v : Place) : Option TableEntity := (s .tables).rows.find? (isAt v)

section Rules

variable {T : ∀ α : Type, Call σ α → (α → Prop) → Prop}

omit [IgnoreCase] in
/-- To register a table its text, if it has one, is injected and the engine is given what the row
has. -/
lemma registerTable_rule (hT : Call.Rules T)
    (hinject : ∀ v text p, place s catalog.userInSession.orgId catalog.currentDb id = some v →
      textAt spark s v = some text → spark.parsePlan text = .ok p →
      T Unit (inject p) fun _ => True)
    (hview : ∀ v t text, place s catalog.userInSession.orgId catalog.currentDb id = some v →
      tableAt s v = some t → t.tableType = CatalogTableType.VIEW → t.viewText = some text →
      T Unit (.ofHandler (spark.registerView id text)) fun _ => True)
    (htable : ∀ v t, place s catalog.userInSession.orgId catalog.currentDb id = some v →
      tableAt s v = some t → t.tableType ≠ CatalogTableType.VIEW →
      (T Unit (.ofHandler (spark.registerDatasourceTable id t.properties)) fun _ => True) ∧
        ∀ hiveTable, T Unit (.ofHandler (spark.createHiveTable id t.properties hiveTable))
          fun _ => True) :
    T Unit (registerTable spark catalog s inject id) fun _ => True := by
  refine hT.bind (hT.ofExcept _) fun d hd => ?_
  obtain ⟨dbEntity, t, hdb, ht, htype, htext, hprops⟩ := read_getTable hd
  have hplace : place s catalog.userInSession.orgId catalog.currentDb id =
      some (dbEntity.id, Names.collate id.table) := by
    rw [place, hdb]
    rfl
  have htextAt : textAt spark s (dbEntity.id, Names.collate id.table) = textOf spark t := by
    rw [textAt, ← table_eq_find?, ht]
    rfl
  split
  · rename_i htypeOf
    have hrow : t.viewText = d.viewText := htext.symm
    refine hT.bind (hT.ofExcept _) fun text hviewText => ?_
    refine hT.bind (hT.ofExcept _) fun p hp => ?_
    rw [viewText_eq_ok hviewText] at hrow
    have hof : textOf spark t = some text := by
      rw [textOf, if_pos (htype ▸ htypeOf), hrow]
    refine hT.bind (hinject _ text p hplace (htextAt.trans hof) hp) fun _ _ => ?_
    exact hview _ t text hplace ht (htype ▸ htypeOf) hrow
  · rename_i htypeOf
    rw [hprops]
    obtain ⟨hdatasource, hhiveTable⟩ := htable _ t hplace ht (htype ▸ htypeOf)
    refine hT.bind (hT.ofExcept _) fun hive hhive => ?_
    cases hive with
    | false => exact hdatasource
    | true =>
      refine hT.bind (hT.ofExcept _) fun hiveTable hfound => ?_
      split
      · rename_i hisView
        refine hT.bind (hT.ofExcept _) fun text hviewText => ?_
        refine hT.bind (hT.ofExcept _) fun p hp => ?_
        have hlookup : t.properties.lookup "type" = some "hive" := by
          unfold isHive at hhive
          split at hhive
          · rename_i type htype'
            rw [htype', Option.some.injEq]
            simpa using hhive
          · cases hhive
        have hof : textOf spark t = some text := by
          rw [textOf, if_neg (htype ▸ htypeOf), if_pos hlookup, hfound]
          simp only [hisView, if_true, viewText_eq_ok hviewText]
        refine hT.bind (hinject _ text p hplace (htextAt.trans hof) hp) fun _ _ => ?_
        exact hhiveTable hiveTable
      · exact hhiveTable hiveTable

/-- To inject the names of a plan the engine is asked for them and those that it does not have are
registered. -/
lemma injectTableFunctions_rule (hT : Call.Rules T) {fuel : Nat} {p q : LogicalPlan}
    (hq : rewrite fuel p = some q)
    (hdatabase : ∀ db, T Unit (.ofHandler (spark.registerDatabase db)) fun _ => True)
    (htableExists : ∀ id, T Bool (.ofHandler (spark.tableExists id)) fun _ => True)
    (hfunctionExists : ∀ id, T Bool (.ofHandler (spark.functionExists id)) fun _ => True)
    (htable : ∀ id ∈ unresolvedTables q, T Unit (registerTable spark catalog s
      (injectTableFunctions spark catalog s fuel) id) fun _ => True)
    (hfunction : ∀ id ∈ unresolvedFunctions q,
      T Unit (registerFunction spark catalog s id) fun _ => True) :
    T Unit (injectTableFunctions spark catalog s (fuel + 1) p) fun _ => True := by
  rw [injectTableFunctions, hq, Call.ofOption_some_bind]
  refine hT.bind (hT.forEach fun db _ => hdatabase db) fun _ _ => ?_
  refine hT.bind (hT.filterNot htableExists _) fun absent hsub => ?_
  refine hT.bind (hT.forEach fun id hid => htable id (hsub hid)) fun _ _ => ?_
  refine hT.bind (hT.filterNot hfunctionExists _) fun absent hsub => ?_
  exact hT.forEach fun id hid => hfunction id (hsub hid)

end Rules

omit [IgnoreCase] in
/-- A table is registered if the text that is gone through for it can be injected. -/
lemma returns_registerTable
    (h : ∀ v text p, place s catalog.userInSession.orgId catalog.currentDb id = some v →
      textAt spark s v = some text → spark.parsePlan text = .ok p →
      (inject p).Returns fun _ => True) :
    (registerTable spark catalog s inject id).Returns fun _ => True :=
  registerTable_rule Call.returns_rules h (fun _ _ _ _ _ _ _ => Call.returns_ofHandler _)
    fun _ _ _ _ _ => ⟨Call.returns_ofHandler _, fun _ => Call.returns_ofHandler _⟩

/-- The names of a plan are injected if the text of each of its tables can be. -/
lemma returns_injectTableFunctions {p q : LogicalPlan} (hq : Gives (fun fuel => rewrite fuel p) q)
    (h : ∀ id ∈ unresolvedTables q, ∀ v text p',
      place s catalog.userInSession.orgId catalog.currentDb id = some v →
      textAt spark s v = some text → spark.parsePlan text = .ok p' →
      ∀ᶠ fuel in atTop, (injectTableFunctions spark catalog s fuel p').Returns fun _ => True) :
    ∀ᶠ fuel in atTop, (injectTableFunctions spark catalog s fuel p).Returns fun _ => True := by
  -- A name has one text, so the fuel that its plan needs is enough for the name.
  have hname : ∀ id ∈ unresolvedTables q, ∀ᶠ fuel in atTop, ∀ v text p',
      place s catalog.userInSession.orgId catalog.currentDb id = some v →
      textAt spark s v = some text → spark.parsePlan text = .ok p' →
      (injectTableFunctions spark catalog s fuel p').Returns fun _ => True := by
    intro id hid
    by_cases hex : ∃ v text p', place s catalog.userInSession.orgId catalog.currentDb id = some v ∧
        textAt spark s v = some text ∧ spark.parsePlan text = .ok p'
    · obtain ⟨v, text, p', hv, htext, hp'⟩ := hex
      filter_upwards [h id hid v text p' hv htext hp'] with fuel hreturns
      intro v₁ text₁ p₁ hv₁ htext₁ hp₁
      obtain rfl : v = v₁ := Option.some.inj (hv.symm.trans hv₁)
      obtain rfl : text = text₁ := Option.some.inj (htext.symm.trans htext₁)
      obtain rfl : p' = p₁ := Except.ok.inj (hp'.symm.trans hp₁)
      exact hreturns
    · filter_upwards with fuel v text p' hv htext hp'
      exact absurd ⟨v, text, p', hv, htext, hp'⟩ hex
  have hnames := (eventually_all_finite (List.finite_toSet (unresolvedTables q))).mpr hname
  rw [← eventually_succ_iff]
  filter_upwards [hq, hnames] with fuel hrewrite htables
  refine injectTableFunctions_rule Call.returns_rules hrewrite
    (fun _ => Call.returns_ofHandler _) (fun _ => Call.returns_ofHandler _)
    (fun _ => Call.returns_ofHandler _) (fun id hid => returns_registerTable (htables id hid))
    fun id _ => ?_
  exact Call.returns_rules.bind (Call.returns_rules.ofExcept _) fun _ _ => Call.returns_ofHandler _

end Injection

/-- Where no view refers to itself every plan whose own rewrite ends can be injected. -/
theorem Expandable.returns (hs : Expandable spark s) {p : LogicalPlan}
    (hp : ∃ q, Gives (fun fuel => rewrite fuel p) q) :
    ∀ᶠ fuel in atTop, (injectTableFunctions spark catalog s fuel p).Returns fun _ => True := by
  have hwf := (hs.acyclic catalog.userInSession.orgId catalog.currentDb).wellFounded refers_finite
  have htexts : ∀ v text p', textAt spark s v = some text → spark.parsePlan text = .ok p' →
      ∀ᶠ fuel in atTop, (injectTableFunctions spark catalog s fuel p').Returns fun _ => True := by
    intro v
    induction v using hwf.induction with
    | _ v ih =>
      intro text p' htext hp'
      obtain ⟨q, hq⟩ := hs.textEnds v text htext p' hp'
      refine returns_injectTableFunctions hq fun id hid w text' p'' hw htext' hp'' => ?_
      exact ih w ⟨text, id, htext, ⟨p', q, hp', hq, hid⟩, hw⟩ text' p'' htext' hp''
  obtain ⟨q, hq⟩ := hp
  exact returns_injectTableFunctions hq fun id _ v text p' _ htext hp' => htexts v text p' htext hp'

/-! ### Runs -/

/-- A view command in a session. -/
structure ViewEvent where
  catalog : MoonboxCatalog
  now : Nat
  command : ViewCommand

namespace ViewEvent

def step (s : Store) (e : ViewEvent) : Store := (e.command.run e.catalog e.now).run.exec s

variable (spark)

/-- The text leads to its own view, in a session of the organization with some current database. -/
def LeadsBack (s : Store) (catalog : MoonboxCatalog) (view : TableIdentifier) (text : String) :
    Prop :=
  ∃ v, viewPlace s catalog view = some v ∧
    ∃ currentDb id w, Mentions spark text id ∧
      place s catalog.userInSession.orgId currentDb id = some w ∧
      ReflTransGen (Refers spark s catalog.userInSession.orgId currentDb) w v

/-- The command fails, or the text it gives to its view can be gone through and does not lead
back. -/
def Safe (s : Store) (e : ViewEvent) : Prop :=
  (e.command.run e.catalog e.now).run.succeeds s = true → ∀ text, e.command.text = some text →
    TextEnds spark text ∧ ¬ LeadsBack spark s e.catalog e.command.view text

end ViewEvent

section Redefined

variable {s' : Store} {v : Place} {text : Option String} {orgId : Nat}

omit [IgnoreCase] in
lemma Redefined.place_eq (h : Redefined spark s s' v text) (orgId : Nat) (currentDb : String)
    (id : TableIdentifier) : place s' orgId currentDb id = place s orgId currentDb id := by
  rw [place, place, Store.database, Store.database, h.databases]

omit [IgnoreCase] in
/-- A place is in the databases of one organization. -/
lemma place_org {orgId' : Nat} {currentDb : String} {id : TableIdentifier}
    (hv : ∃ e ∈ (s .databases).rows, e.id = v.1 ∧ e.organizationId = orgId)
    (hplace : place s orgId' currentDb id = some v) : orgId' = orgId := by
  obtain ⟨e, he, hid, rfl⟩ := hv
  obtain ⟨e', he', hid', rfl⟩ := place_inOrg hplace
  rw [(s .databases).eq_of_id he he' (hid.trans hid'.symm)]

/-- A view is redefined by a text that does not lead back to it. -/
lemma Expandable.redefined (hs : Expandable spark s) (hre : Redefined spark s s' v text)
    (hv : ∃ e ∈ (s .databases).rows, e.id = v.1 ∧ e.organizationId = orgId)
    (htext : ∀ t, text = some t → TextEnds spark t ∧ ∀ currentDb id w, Mentions spark t id →
      place s orgId currentDb id = some w → ¬ ReflTransGen (Refers spark s orgId currentDb) w v) :
    Expandable spark s' := by
  constructor
  · intro orgId' currentDb
    refine (hs.acyclic orgId' currentDb).redefine (k := v) ?_ ?_
    · rintro a ha b ⟨t, id, hat, hmentions, hplace⟩
      rw [hre.same a ha] at hat
      rw [hre.place_eq] at hplace
      exact ⟨t, id, hat, hmentions, hplace⟩
    · rintro b ⟨t, id, hat, hmentions, hplace⟩ hback
      rw [hre.new] at hat
      rw [hre.place_eq] at hplace
      -- What leads to the view is in the organization of the view.
      have horg : orgId' = orgId := by
        rcases ReflTransGen.cases_tail hback with rfl | ⟨c, _, _, _, _, _, hlast⟩
        · exact place_org hv hplace
        · exact place_org hv hlast
      subst horg
      exact (htext t hat).2 currentDb id b hmentions hplace hback
  · intro w t hat
    by_cases hw : w = v
    · rw [hw, hre.new] at hat
      exact (htext t hat).1
    · rw [hre.same w hw] at hat
      exact hs.textEnds w t hat

end Redefined

omit [IgnoreCase] in
lemma viewPlace_inOrg {view : TableIdentifier} {v : Place}
    (h : viewPlace s catalog view = some v) :
    ∃ e ∈ (s .databases).rows, e.id = v.1 ∧ e.organizationId = catalog.userInSession.orgId := by
  have hplace : place s catalog.userInSession.orgId ""
      ⟨view.table, some (JdbcCatalog.formatDatabaseName (catalog.databaseOf view.database))⟩ =
      some v := h
  exact place_inOrg hplace

lemma Expandable.step {e : ViewEvent} (hs : Expandable spark s) (hsafe : e.Safe spark s) :
    Expandable spark (ViewEvent.step s e) := by
  have hwp : Action.wp (e.command.run e.catalog e.now)
      (fun _ => Redefines spark s e.catalog e.command.view e.command.text) (fun s' => s' = s) s :=
    e.command.redefines
  rw [ViewEvent.step]
  cases hsucceeds : (e.command.run e.catalog e.now).run.succeeds s with
  | false => rwa [Actor.Handler.of_wp_of_fails hwp hsucceeds]
  | true =>
    rcases Actor.Handler.of_wp_of_succeeds hwp hsucceeds with hsame | ⟨v, hv, hre⟩
    · rwa [hsame]
    · refine hs.redefined hre (viewPlace_inOrg hv) fun t ht => ?_
      obtain ⟨hends, hback⟩ := hsafe hsucceeds t ht
      exact ⟨hends, fun currentDb id w hmentions hw hreach =>
        hback ⟨v, hv, currentDb, id, w, hmentions, hw, hreach⟩⟩

/-- In every run in which no command gives a view a text that leads back to it, no view ever refers
to itself and the names of every query can be injected. -/
theorem view_expansion_ends (spark : SparkSession σ) (s : Store) (events : List ViewEvent)
    (hs : Expandable spark s)
    (hsafe : Actor.EachStep ViewEvent.step (ViewEvent.Safe spark) s events) :
    (∀ orgId currentDb v,
      ¬ TransGen (Refers spark (events.foldl ViewEvent.step s) orgId currentDb) v v) ∧
    ∀ catalog p, (∃ q, Gives (fun fuel => rewrite fuel p) q) →
      ∃ n, ∀ fuel ≥ n, ∀ engine,
        (injectTableFunctions spark catalog (events.foldl ViewEvent.step s) fuel p engine).isSome :=
    by
  have hend : Expandable spark (events.foldl ViewEvent.step s) := by
    have hstep : ∀ s e, Expandable spark s → ViewEvent.Safe spark s e →
        Expandable spark (ViewEvent.step s e) := fun _ _ h hsafe => h.step hsafe
    exact Actor.EachStep.invariant hstep hs hsafe
  refine ⟨hend.acyclic, fun catalog p hp => ?_⟩
  obtain ⟨n, hn⟩ := eventually_atTop.mp (hend.returns hp)
  refine ⟨n, fun fuel hfuel engine => ?_⟩
  obtain ⟨r, engine', h, -⟩ := hn fuel hfuel engine
  rw [h]
  rfl

/-! ### Two views -/

section TwoViews

/-- The text of a view is the name of the table that it selects from. -/
def plainSpark : SparkSession Unit where
  parsePlan text := .ok (.node [] [.unresolvedRelation ⟨text, none⟩])
  registerDatabase _ := pure ()
  tableExists _ := pure false
  functionExists _ := pure false
  registerFunction _ := pure ()
  registerView _ _ := pure ()
  registerDatasourceTable _ _ := pure ()
  hiveTable _ := .error ""
  createHiveTable _ _ _ := pure ()

def rowOfDefault : DatabaseEntity :=
  { id := 1
    name := "default"
    organizationId := 1
    description := none
    properties := []
    isLogical := true
    createBy := 1
    createTime := 3
    updateBy := 1
    updateTime := 3 }

def withDefault : Store := execAll [.insert .databases rowOfDefault] saAndBob

def createViewA : ViewEvent := ⟨sessionOfSa, 4, .createView ⟨"a", none⟩ "b" none false⟩

def createViewB : ViewEvent := ⟨sessionOfSa, 5, .createView ⟨"b", none⟩ "a" none false⟩

/-- `SELECT * FROM` a table. -/
private def select (table : String) : LogicalPlan := .node [] [.unresolvedRelation ⟨table, none⟩]

def viewOfSa (name text : String) : CatalogTable :=
  { name := name
    db := some "default"
    tableType := CatalogTableType.VIEW
    viewText := some text
    owner := some "sa" }

/-- Where nothing is stored nothing refers to itself. -/
lemma expandable_of_noTexts (h : ∀ v, textAt spark s v = none) : Expandable spark s := by
  constructor
  · intro orgId currentDb v hv
    obtain ⟨w, ⟨text, _, htext, _⟩, _⟩ := TransGen.head'_iff.mp hv
    rw [h v] at htext
    cases htext
  · intro v text htext
    rw [h v] at htext
    cases htext

/-- A view is injected after the table that its text selects from. -/
lemma inject_view {fuel : Nat} {table text : String} {d : CatalogTable}
    (hd : read s (JdbcCatalog.getTable catalog.currentDb table catalog.userInSession) = .ok d)
    (hview : d.tableType = CatalogTableType.VIEW) (htext : d.viewText = some text)
    (hnone : injectTableFunctions plainSpark catalog s fuel (select text) () = none) :
    injectTableFunctions plainSpark catalog s (fuel + 1) (select table) () = none := by
  have hregister : registerTable plainSpark catalog s
      (injectTableFunctions plainSpark catalog s fuel) ⟨table, none⟩ () = none := by
    have hparse : plainSpark.parsePlan text = .ok (select text) := rfl
    rw [registerTable, Option.getD_none, hd, Call.ofExcept_ok_bind, if_pos hview, htext, viewText,
      Call.ofExcept_ok_bind, hparse, Call.ofExcept_ok_bind]
    exact Call.bind_eq_none hnone
  have hrewrite : rewrite fuel (select table) = some (select table) := rfl
  have htables : unresolvedTables (select table) = [⟨table, none⟩] := rfl
  have hdatabases : Call.forEach (fun db => .ofHandler (plainSpark.registerDatabase db))
      (([⟨table, none⟩].map TableIdentifier.database ++
        (unresolvedFunctions (select table)).map FunctionIdentifier.database).filterMap id) =
      pure () := rfl
  have habsent : Call.filterNot (fun id => .ofHandler (plainSpark.tableExists id))
      [⟨table, none⟩] = pure [⟨table, none⟩] := rfl
  rw [injectTableFunctions, hrewrite, Call.ofOption_some_bind, htables, hdatabases,
    Call.pure_bind, habsent, Call.pure_bind]
  exact Call.bind_eq_none (Call.bind_eq_none hregister)

omit [Names] [IgnoreCase] in
/-- The first of the two commands does no harm. -/
theorem view_expansion_ends_first :
    let _ := exactNames
    let _ : IgnoreCase := ⟨fun a b => a == b⟩
    (∀ orgId currentDb v, ¬ TransGen
      (Refers plainSpark ([createViewA].foldl ViewEvent.step withDefault) orgId currentDb) v v) ∧
    ∀ catalog p, (∃ q, Gives (fun fuel => rewrite fuel p) q) →
      ∃ n, ∀ fuel ≥ n, ∀ engine, (injectTableFunctions plainSpark catalog
        ([createViewA].foldl ViewEvent.step withDefault) fuel p engine).isSome := by
  intro _ _
  have hnone : ∀ v, textAt plainSpark withDefault v = none := fun v => rfl
  refine view_expansion_ends plainSpark withDefault [createViewA] (expandable_of_noTexts hnone)
    ⟨?_, trivial⟩
  rintro - text ⟨⟩
  constructor
  · rintro p ⟨⟩
    exact ⟨select "b", gives_some _⟩
  · rintro ⟨v, hv, currentDb, id, w, ⟨p, q, hp, hq, hid⟩, hw, hreach⟩
    cases hp
    have hselect : Gives (fun fuel => rewrite fuel (select "b")) (select "b") := gives_some _
    obtain rfl : select "b" = q := hselect.unique hq
    have htables : unresolvedTables (select "b") = [⟨"b", none⟩] := rfl
    rw [htables, List.mem_singleton] at hid
    subst hid
    rcases ReflTransGen.cases_head hreach with rfl | ⟨c, ⟨text, _, htext, _⟩, _⟩
    · obtain ⟨_, _, hwa⟩ := Option.map_eq_some_iff.mp hv
      obtain ⟨_, _, hwb⟩ := Option.map_eq_some_iff.mp hw
      have hnames : "a" = "b" := congrArg Prod.snd (hwa.trans hwb.symm)
      exact absurd hnames (by decide)
    · rw [hnone] at htext
      cases htext

omit [Names] [IgnoreCase] in
/-- `CREATE VIEW a AS SELECT * FROM b`, then `CREATE VIEW b AS SELECT * FROM a`. -/
theorem view_expansion_fails :
    let _ := exactNames
    let _ : IgnoreCase := ⟨fun a b => a == b⟩
    Expandable plainSpark withDefault ∧
      TransGen (Refers plainSpark ([createViewA, createViewB].foldl ViewEvent.step withDefault)
        1 "default") (1, "a") (1, "a") ∧
      ∀ fuel, injectTableFunctions plainSpark sessionOfSa
        ([createViewA, createViewB].foldl ViewEvent.step withDefault) fuel (select "a") () =
          none := by
  intro _ _
  have ha : textAt plainSpark ([createViewA, createViewB].foldl ViewEvent.step withDefault)
      (1, "a") = some "b" := by decide +kernel
  have hb : textAt plainSpark ([createViewA, createViewB].foldl ViewEvent.step withDefault)
      (1, "b") = some "a" := by decide +kernel
  refine ⟨expandable_of_noTexts fun v => rfl, ?_, fun fuel => ?_⟩
  · have hab : Refers plainSpark
        ([createViewA, createViewB].foldl ViewEvent.step withDefault) 1 "default" (1, "a") (1, "b") :=
      ⟨"b", ⟨"b", none⟩, ha, ⟨select "b", select "b", rfl, gives_some _, by decide⟩,
        by decide +kernel⟩
    have hba : Refers plainSpark
        ([createViewA, createViewB].foldl ViewEvent.step withDefault) 1 "default" (1, "b") (1, "a") :=
      ⟨"a", ⟨"a", none⟩, hb, ⟨select "a", select "a", rfl, gives_some _, by decide⟩,
        by decide +kernel⟩
    exact .head hab (.single hba)
  · have hda : read ([createViewA, createViewB].foldl ViewEvent.step withDefault)
        (JdbcCatalog.getTable "default" "a" sessionOfSa.userInSession) = .ok (viewOfSa "a" "b") := by
      decide +kernel
    have hdb : read ([createViewA, createViewB].foldl ViewEvent.step withDefault)
        (JdbcCatalog.getTable "default" "b" sessionOfSa.userInSession) = .ok (viewOfSa "b" "a") := by
      decide +kernel
    have hboth : ∀ fuel,
        injectTableFunctions plainSpark sessionOfSa
          ([createViewA, createViewB].foldl ViewEvent.step withDefault) fuel (select "a") () = none ∧
        injectTableFunctions plainSpark sessionOfSa
          ([createViewA, createViewB].foldl ViewEvent.step withDefault) fuel (select "b") () =
            none := by
      intro fuel
      induction fuel with
      | zero => exact ⟨rfl, rfl⟩
      | succ fuel ih => exact ⟨inject_view hda rfl rfl ih.2, inject_view hdb rfl rfl ih.1⟩
    exact (hboth fuel).1

end TwoViews

end Moonbox.Spark
