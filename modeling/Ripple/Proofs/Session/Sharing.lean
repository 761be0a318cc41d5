import Ripple.Proofs.Session.Reopening

/-!
# Databases that share a disk

Sessions of several databases share a disk (`Shared`): each finds it as the others have left it.
If the databases lie in different files, then all that is ever shown through one of them was in its
file before or was to be stored through it (`Shared.Apart.run`), whatever is done to all of them and
in which order, and however often they are closed and opened again.

A database at a plain path lies in the file that the path names, and so databases at plain paths
are separate if the paths name different files (`separate_run`). A path that is not plain can name
another file than the one in which the database lies (`separate_fails_decoded`).
-/

namespace Ripple

/-! ## What is shown -/

/-- A node that can be read in a session. -/
inductive Session.Shows (s : Session) (node : Node) : Prop
  | getNode (id : String) (h : (Session.getNode id).result s = .ok (some node))
  | nodesAt (path : String) (nodes : List Node) (h : (Session.nodesAt path).result s = .ok nodes)
    (hmem : node ∈ nodes)
  | find (text : String) (limit : UInt64) (nodes : List Node)
    (h : (Session.find text limit).result s = .ok nodes) (hmem : node ∈ nodes)
  | searchDirectly (text : String) (limit : UInt64) (nodes : List Node) (route : SearchRoute)
    (h : (Session.searchDirectly text limit).result s = .ok (nodes, route)) (hmem : node ∈ nodes)

theorem Tables.nodes_rows {t : Tables} {table : NodeTable} (h : t.nodes = some table) :
    t.rows.nodes = table.rows := by
  rw [rows, h]
  rfl

/-- What is found is read from rows. -/
theorem Tables.exists_row_of_search {t : Tables} {engine : FullText.Engine} {text : String}
    {limit : UInt64} {nodes : List Node} {route : SearchRoute}
    (h : t.search engine text limit = .ok (nodes, route)) {node : Node} (hmem : node ∈ nodes) :
    ∃ row ∈ t.rows.nodes, row.decode = .ok node := by
  obtain ⟨rows, hrows, hdecode⟩ := search_eq_ok.1 h
  obtain ⟨table, htable, hsubset⟩ := exists_nodes_of_searchRows hrows
  obtain ⟨row, hrow, hnode⟩ := exists_of_forall₂ hdecode hmem
  rw [nodes_rows htable]
  exact ⟨row, hsubset hrow, hnode⟩

/-- What is shown is read from rows. -/
theorem Session.Shows.exists_row {s : Session} {node : Node} (h : s.Shows node) :
    ∃ t, s.workspace.tables? = some t ∧ ∃ row ∈ t.rows.nodes, row.decode = .ok node := by
  cases h with
  | getNode id h =>
    obtain ⟨t, ht, hnode⟩ := exists_of_query h
    obtain ⟨table, htable, ⟨-, hnone⟩ | ⟨row, _, hrow, hdecode, hsome⟩⟩ :=
      Tables.node?_eq_ok.1 hnode
    · cases hnone
    · obtain rfl := Option.some.inj hsome
      refine ⟨t, ht, row, ?_, hdecode⟩
      rw [Tables.nodes_rows htable]
      exact List.mem_of_find?_eq_some hrow
  | nodesAt path nodes h hmem =>
    obtain ⟨t, ht, hnodes⟩ := exists_of_query h
    obtain ⟨table, htable, hdecode⟩ := Tables.nodesAt_eq_ok.1 hnodes
    obtain ⟨row, hrow, hnode⟩ := exists_of_forall₂ hdecode hmem
    refine ⟨t, ht, row, ?_, hnode⟩
    rw [Tables.nodes_rows htable]
    exact List.mem_of_mem_filter hrow
  | find text limit nodes h hmem =>
    rw [Session.find, (Action.get_bind _ s).1] at h
    obtain ⟨t, ht, hnodes⟩ := exists_of_query h
    obtain ⟨⟨found, route⟩, hsearch, rfl⟩ := map_eq_ok.1 hnodes
    exact ⟨t, ht, Tables.exists_row_of_search hsearch hmem⟩
  | searchDirectly text limit nodes route h hmem =>
    obtain ⟨t, ht, hsearch⟩ := exists_of_read h
    exact ⟨t, ht, Tables.exists_row_of_search hsearch hmem⟩

/-! ## Sessions on one disk -/

/-- What is done to a session. -/
inductive Act where
  /-- A call is made. -/
  | call (call : Call)
  /-- The database is closed. -/
  | close
  /-- The database is closed and opened again. -/
  | reopen

namespace Act

/-- The session afterwards. -/
def after (s : Session) : Act → Session
  | call made => made.after s
  | close => s.close
  | reopen => s.reopen.1

/-- The row of the node that is to be stored. -/
def row? : Act → Option NodeRow
  | call made => made.row?
  | _ => none

/-- What is done to a session leaves the database in its file, and adds no node to any file but the
    one that is to be stored, and this to no other file. -/
theorem after_of_liesIn {s : Session} {path : String}
    (hlies : s.workspace.database.backing.LiesIn (s.workspace.disk.placeOf path))
    (hlocation : Location.ofPath s.workspace.database.options.path = .ok (.file path))
    (act : Act) :
    (act.after s).workspace.database.backing.LiesIn (s.workspace.disk.placeOf path) ∧
      (act.after s).workspace.database.options = s.workspace.database.options ∧
      (act.after s).workspace.disk.working = s.workspace.disk.working ∧
      ∀ other, ∀ row ∈ ((act.after s).workspace.disk.tablesAt other).rows.nodes,
        row ∈ (s.workspace.disk.tablesAt other).rows.nodes ∨
          other = s.workspace.disk.placeOf path ∧ row ∈ act.row? := by
  cases act with
  | call made =>
    have hcall := made.rewritesWith s
    have hdatabase := hcall.rewrites.database_eq hlies
    simp only [after, hdatabase]
    exact ⟨hlies, trivial, hcall.rewrites.working, fun other row hrow => hcall.mem_nodes hlies hrow⟩
  | close =>
    obtain ⟨hclosed, hoptions⟩ := Workspace.backing_close hlies
    exact ⟨hclosed, hoptions, s.workspace.working_close, fun other row hrow =>
      .inl (Workspace.mem_nodes_of_tablesAt (s.workspace.tablesAt_close other) hrow)⟩
  | reopen =>
    obtain ⟨hbacking, hoptions, hworking, hnodes⟩ := Workspace.reopen_of_liesIn hlies hlocation
    have hworkspace : s.reopen.1.workspace = s.workspace.reopen.1 := by
      rw [Session.reopen]
      split <;> simp only [*]
    simp only [after, hworkspace]
    exact ⟨hbacking, hoptions, hworking, fun other row hrow => .inl (hnodes other row hrow)⟩

end Act

variable {ι : Type}

/-- Sessions of databases that share a disk. -/
structure Shared (ι : Type) where
  /-- The disk. -/
  disk : Disk Tables
  /-- The sessions, each with the disk that it has seen last. -/
  session : ι → Session

namespace Shared

/-- A session that finds the disk as it is. -/
def look (shared : Shared ι) (i : ι) : Session :=
  { shared.session i with workspace.disk := shared.disk }

/-- Each database lies in a file of its own, where its path leads. -/
structure Apart (shared : Shared ι) (path : ι → String) : Prop where
  backing (i : ι) : (shared.session i).workspace.database.backing.LiesIn
    (shared.disk.placeOf (path i))
  /-- The database stays in its file when it is opened again. -/
  location (i : ι) : Location.ofPath (shared.session i).workspace.database.options.path =
    .ok (.file (path i))
  distinct : Function.Injective fun i => shared.disk.placeOf (path i)

/-- What is shown through a database is read from its file. -/
theorem Apart.exists_row_of_shows {shared : Shared ι} {path : ι → String}
    (h : shared.Apart path) {i : ι} {node : Node}
    (hshows : (shared.look i).Shows node) :
    ∃ row ∈ (shared.disk.tablesAt (shared.disk.placeOf (path i))).rows.nodes,
      row.decode = .ok node := by
  obtain ⟨t, ht, row, hrow, hdecode⟩ := hshows.exists_row
  rw [← Workspace.contents_of_tables? ht] at hrow
  exact ⟨row, Workspace.mem_nodes_of_contents (w := (shared.look i).workspace) (h.backing i) hrow,
    hdecode⟩

variable [DecidableEq ι]

/-- Something is done to a session. -/
def step (shared : Shared ι) (step : ι × Act) : Shared ι :=
  let s := step.2.after (shared.look step.1)
  ⟨s.workspace.disk, Function.update shared.session step.1 s⟩

/-- Things are done to sessions, one after the other. -/
def run (shared : Shared ι) (steps : List (ι × Act)) : Shared ι := steps.foldl step shared

namespace Apart

variable {shared : Shared ι} {path : ι → String}

/-- After a step the databases lie in their files, and there is no new node but the one that is to
    be stored, in the file of the database through which it is. -/
theorem step (h : shared.Apart path) (step : ι × Act) :
    (shared.step step).Apart path ∧ (shared.step step).disk.working = shared.disk.working ∧
      ∀ i, ∀ row ∈ ((shared.step step).disk.tablesAt (shared.disk.placeOf (path i))).rows.nodes,
        row ∈ (shared.disk.tablesAt (shared.disk.placeOf (path i))).rows.nodes ∨
          step.1 = i ∧ row ∈ step.2.row? := by
  obtain ⟨j, act⟩ := step
  obtain ⟨hbacking, hoptions, hworking, hrows⟩ :=
    act.after_of_liesIn (s := shared.look j) (h.backing j) (h.location j)
  have hplace (i : ι) :
      (shared.step (j, act)).disk.placeOf (path i) = shared.disk.placeOf (path i) :=
    Disk.placeOf_of_working hworking (path i)
  have hsame : (shared.step (j, act)).session j = act.after (shared.look j) := by simp [Shared.step]
  have hothers {i : ι} (hi : i ≠ j) : (shared.step (j, act)).session i = shared.session i := by
    simp [Shared.step, hi]
  refine ⟨⟨fun i => ?_, fun i => ?_, ?_⟩, hworking, fun i row hrow => ?_⟩
  · rw [hplace]
    by_cases hi : i = j
    · rw [hi, hsame]
      exact hbacking
    · rw [hothers hi]
      exact h.backing i
  · by_cases hi : i = j
    · rw [hi, hsame, hoptions]
      exact h.location j
    · rw [hothers hi]
      exact h.location i
  · simpa only [hplace] using h.distinct
  · exact (hrows _ row hrow).imp_right fun hnew => ⟨(h.distinct hnew.1).symm, hnew.2⟩

/-- However many steps there are, each file holds no nodes but those that it held before and those
    that were to be stored through its own database. -/
theorem run (h : shared.Apart path) (steps : List (ι × Act)) :
    (shared.run steps).Apart path ∧ (shared.run steps).disk.working = shared.disk.working ∧
      ∀ i, ∀ row ∈ ((shared.run steps).disk.tablesAt (shared.disk.placeOf (path i))).rows.nodes,
        row ∈ (shared.disk.tablesAt (shared.disk.placeOf (path i))).rows.nodes ∨
          ∃ act, (i, act) ∈ steps ∧ row ∈ act.row? := by
  induction steps generalizing shared with
  | nil => exact ⟨h, rfl, fun i row hrow => .inl hrow⟩
  | cons step steps ih =>
    obtain ⟨hstep, hworking, hnew⟩ := h.step step
    obtain ⟨hrun, hworking', hrows⟩ := ih hstep
    refine ⟨hrun, hworking'.trans hworking, fun i row hrow => ?_⟩
    rw [← Disk.placeOf_of_working hworking] at hrow
    rcases hrows i row hrow with hmem | ⟨act, hact, hmem⟩
    · rw [Disk.placeOf_of_working hworking] at hmem
      refine (hnew i row hmem).imp_right ?_
      rintro ⟨rfl, hstored⟩
      exact ⟨step.2, List.mem_cons_self, hstored⟩
    · exact .inr ⟨act, List.mem_cons_of_mem _ hact, hmem⟩

end Apart

end Shared

/-- Two sessions on a disk. -/
def Shared.pair (disk : Disk Tables) (first second : Session) : Shared Bool where
  disk := disk
  session isSecond := if isSecond then second else first

/-! ## Plain paths -/

open Location (IsPlain)

/-- Let two databases be opened at plain paths that name different files. Whatever is then done
    through them, in whatever order, a node that is shown through one of them was in its file before
    they were opened or was to be stored through this database.

    Besides, a database that is opened at a plain path lies in the file that the path names: it is
    there, nothing else has been made but directories and the companions of the database, nothing
    has been taken away but what lay where these belong, and it is at this place that the operating
    system looks for the path. -/
theorem separate_run {p q : DatabaseOptions} (hp : IsPlain p.path) (hq : IsPlain q.path)
    {disk disk₁ disk₂ : Disk Tables} (hne : disk.placeOf p.path ≠ disk.placeOf q.path)
    {w v : Workspace} (hopen : Workspace.openWith p disk = (disk₁, .ok w))
    (hopen' : Workspace.openWith q disk₁ = (disk₂, .ok v)) (config config' : Config)
    (steps : List (Bool × Act)) :
    (∀ isSecond node,
      (((Shared.pair disk₂ (.start config w) (.start config' v)).run steps).look isSecond).Shows
        node →
      ∃ row, row.decode = .ok node ∧
        (row ∈ (disk.tablesAt (disk.placeOf (if isSecond then q else p).path)).rows.nodes ∨
          ∃ act, (isSecond, act) ∈ steps ∧ row ∈ act.row?)) ∧
    (∃ t, disk₁.at? (disk.placeOf p.path) = some (.database t)) ∧
    (∀ other ≠ disk.placeOf p.path, disk₁.at? other = disk.at? other ∨
      disk.at? other = none ∧ disk₁.at? other = some .directory ∨
      other ∈ p.journalMode.beside (disk.placeOf p.path) ∧
        (disk₁.at? other = some .companion ∨ disk₁.at? other = none)) ∧
    ∀ (later : Disk Tables) (place : Place) (slash : Bool), later.working = disk.working →
      later.locate p.path = .ok (.name place slash) → place = disk.placeOf p.path := by
  have hp' := Workspace.ofPath_of_openWith hp hopen
  have hq' := Workspace.ofPath_of_openWith hq hopen'
  have hworking : disk₁.working = disk.working := by
    simpa [hopen] using Workspace.working_openWith p disk
  have hworking' : disk₂.working = disk.working := by
    simpa [hopen', hworking] using Workspace.working_openWith q disk₁
  obtain ⟨-, hw, hfile, hmade, hothers⟩ := Workspace.openWith_eq_ok hp' hopen
  obtain ⟨-, hv, hfile', -⟩ := Workspace.openWith_eq_ok hq' hopen'
  rw [Disk.placeOf_of_working hworking] at hfile'
  -- Neither of the two openings adds nodes to a file.
  have hnodes (place : Place) (row : NodeRow) (hrow : row ∈ (disk₂.tablesAt place).rows.nodes) :
      row ∈ (disk.tablesAt place).rows.nodes := by
    have hfirst := Workspace.mem_nodes_openWith p disk place row
    have hsecond := Workspace.mem_nodes_openWith q disk₁ place row
    rw [hopen] at hfirst
    rw [hopen'] at hsecond
    exact hfirst (hsecond hrow)
  -- Each database lies where its path leads, also when it is opened again.
  have hapart : (Shared.pair disk₂ (.start config w) (.start config' v)).Apart
      fun isSecond => (if isSecond then q else p).path := by
    have hplace (path : String) : disk₂.placeOf path = disk.placeOf path :=
      Disk.placeOf_of_working hworking' path
    refine ⟨?_, ?_, ?_⟩
    · rintro (_ | _)
      · exact (hplace p.path).symm ▸ hfile
      · exact (hplace q.path).symm ▸ hfile'
    · rintro (_ | _)
      · simp [Shared.pair, Session.start, hw, hp']
      · simp [Shared.pair, Session.start, hv, hq']
    · rintro (_ | _) (_ | _) heq
      · rfl
      · exact absurd (by simpa [Shared.pair, hplace] using heq) hne
      · exact absurd (by simpa [Shared.pair, hplace] using heq.symm) hne
      · rfl
  refine ⟨fun isSecond node hshows => ?_, hmade, hothers,
    fun later place slash hlater hlocate => ?_⟩
  · obtain ⟨hrun, hlast, hmem⟩ := hapart.run steps
    obtain ⟨row, hrow, hdecode⟩ := hrun.exists_row_of_shows hshows
    rw [Disk.placeOf_of_working hlast] at hrow
    refine ⟨row, hdecode, (hmem isSecond row hrow).imp_left fun hrow => ?_⟩
    rw [← Disk.placeOf_of_working hworking']
    exact hnodes _ row hrow
  · rw [← Disk.placeOf_of_locate hlocate, Disk.placeOf_of_working hlater]

/-- A disk with new databases in some files of the working directory. -/
def Disk.made (names : List String) : Disk Tables where
  working := ["work".toList]
  entries := names.flatMap fun name => newEntries ["work".toList, name.toList]

/-- A database that has been opened at a path and lies in one of these files. -/
def Workspace.madeAt (path name : String) (disk : Disk Tables) : Workspace :=
  ⟨disk, ⟨.atPath path, .file ["work".toList, name.toList], true⟩⟩

/-- No directory is made for a file of the working directory. -/
theorem Workspace.openWith_of_openFile (path name : String) (names : List String)
    {disk disk' : Disk Tables} (hparent : Path.parent? path = some "")
    (hlocation : Location.ofPath path = .ok (.file name))
    (hopen : openFile (.atPath path) name disk =
      (disk', .ok (.file ["work".toList, name.toList])))
    (hmigrate : (madeAt path name disk').migrate = (madeAt path name (.made names), .ok ())) :
    openWith (.atPath path) disk = (.made names, .ok (madeAt path name (.made names))) := by
  have hprepare : prepareDirectory path disk = (disk, .ok ()) := by
    simp [prepareDirectory, hparent]
  have hplain : openPlain (.atPath path) disk =
      (disk', .ok ⟨.atPath path, .file ["work".toList, name.toList], true⟩) := by
    have hpath : (DatabaseOptions.atPath path).path = path := rfl
    simp only [openPlain, hpath, hprepare, hlocation, hopen]
  have hmigrates : (DatabaseOptions.atPath path).autoMigrate = true := rfl
  rw [madeAt] at hmigrate
  rw [openWith, hplain]
  simp only [hmigrates, if_true, hmigrate]
  rfl

/-- A node is stored through the first of two databases, which is then closed. The other one is
    opened again, asked for the node, and stores another. -/
def Shared.visits : List (Bool × Act) :=
  let node (id : String) : Node := ⟨id, "concept", id, none, none, none, .epoch⟩
  [(false, .call (.upsert (fun _ => none) (node "a") .epoch)), (false, .close), (true, .reopen),
    (true, .call (.getNode "a")), (true, .call (.upsert (fun _ => none) (node "b") .epoch)),
    (false, .reopen)]

theorem separate_run_visits :
    Workspace.openWith (.atPath "a.db") .empty =
      (.made ["a.db"], .ok (.madeAt "a.db" "a.db" (.made ["a.db"]))) ∧
    Workspace.openWith (.atPath "b.db") (.made ["a.db"]) =
      (.made ["b.db", "a.db"], .ok (.madeAt "b.db" "b.db" (.made ["b.db", "a.db"]))) ∧
    IsPlain "a.db" ∧ IsPlain "b.db" ∧
    (Disk.made []).placeOf "a.db" ≠ (Disk.made []).placeOf "b.db" ∧
    ∀ (config config' : Config) (node : Node),
      (((Shared.pair (.made ["b.db", "a.db"])
        (.start config (.madeAt "a.db" "a.db" (.made ["a.db"])))
        (.start config' (.madeAt "b.db" "b.db" (.made ["b.db", "a.db"])))).run
          Shared.visits).look true).Shows node → node.id = "b" := by
  have hplain : ∀ path ∈ ["a.db", "b.db"], IsPlain path := by
    intro path hpath
    simp only [List.mem_cons, List.not_mem_nil, or_false] at hpath
    rcases hpath with rfl | rfl <;>
      exact ⟨by decide, by decide, by decide, Location.percentDecode_bytesOf (by decide), by decide⟩
  have hne : (Disk.made []).placeOf "a.db" ≠ (Disk.made []).placeOf "b.db" := by decide
  have hfirst : Workspace.openWith (.atPath "a.db") .empty =
      (.made ["a.db"], .ok (.madeAt "a.db" "a.db" (.made ["a.db"]))) :=
    Workspace.openWith_of_openFile "a.db" "a.db" ["a.db"] (by decide +kernel) (by decide +kernel)
      rfl rfl
  have hsecond : Workspace.openWith (.atPath "b.db") (.made ["a.db"]) =
      (.made ["b.db", "a.db"], .ok (.madeAt "b.db" "b.db" (.made ["b.db", "a.db"]))) :=
    Workspace.openWith_of_openFile "b.db" "b.db" ["b.db", "a.db"] (by decide +kernel)
      (by decide +kernel) rfl rfl
  refine ⟨hfirst, hsecond, hplain _ (by simp), hplain _ (by simp), hne,
    fun config config' node hshows => ?_⟩
  obtain ⟨row, hdecode, hold | ⟨act, hact, hnew⟩⟩ := (separate_run (p := .atPath "a.db")
    (q := .atPath "b.db") (hplain _ (by simp [DatabaseOptions.atPath]))
    (hplain _ (by simp [DatabaseOptions.atPath])) hne hfirst hsecond config config'
    Shared.visits).1 true node hshows
  · cases hold
  · -- Of what is done through the second database, only one call is to store a node.
    obtain ⟨_, _, -, -, rfl⟩ := NodeRow.decode_eq_ok.1 hdecode
    simp only [Shared.visits, List.mem_cons, Prod.mk.injEq, List.not_mem_nil, or_false] at hact
    rcases hact with ⟨⟨⟩, -⟩ | ⟨⟨⟩, -⟩ | ⟨-, rfl⟩ | ⟨-, rfl⟩ | ⟨-, rfl⟩ | ⟨⟨⟩, -⟩
    · cases hnew
    · cases hnew
    · obtain rfl := Option.some.inj hnew
      rfl

/-- The percent sign of a path is decoded: the database that is opened at the first path lies in the
    file of the second one, where its nodes are shown, and there is nothing at the first. -/
theorem separate_fails_decoded :
    Path.isAbsolute "a%2Edb" = false ∧ Path.isAbsolute "a.db" = false ∧
    "a%2Edb" ≠ Location.memoryPath ∧ "a.db" ≠ Location.memoryPath ∧
    (Disk.made []).placeOf "a%2Edb" ≠ (Disk.made []).placeOf "a.db" ∧
    Workspace.openWith (.atPath "a%2Edb") .empty =
      (.made ["a.db"], .ok (.madeAt "a%2Edb" "a.db" (.made ["a.db"]))) ∧
    (Disk.made ["a.db"]).at? ((Disk.made []).placeOf "a%2Edb") = none ∧
    Workspace.openWith (.atPath "a.db") (.made ["a.db"]) =
      (.made ["a.db"], .ok (.madeAt "a.db" "a.db" (.made ["a.db"]))) ∧
    let node : Node := ⟨"a", "concept", "a", none, none, none, .epoch⟩
    (((Shared.pair (.made ["a.db"]) (.start .made (.madeAt "a%2Edb" "a.db" (.made ["a.db"])))
      (.start .made (.madeAt "a.db" "a.db" (.made ["a.db"])))).run
        [(false, .call (.upsert (fun _ => none) node .epoch))]).look true).Shows node :=
  ⟨by decide, by decide, by decide, by decide, by decide,
    Workspace.openWith_of_openFile "a%2Edb" "a.db" ["a.db"] (by decide +kernel) (by decide +kernel)
      rfl rfl,
    by decide,
    Workspace.openWith_of_openFile "a.db" "a.db" ["a.db"] (by decide +kernel) (by decide +kernel)
      rfl rfl,
    .getNode "a" rfl⟩

end Ripple
