import Ripple.Graph.Record
import Ripple.Config.Record
import Ripple.Proofs.Record.Tagged

/-!
# Round trips of records

What is decoded from the text of an event, a report, sizes or a configuration is the value that was
written, as long as its counts are of 64 bits. The same holds of nodes and edges if their metadata
can be read back (`Attachable`), except that metadata which are `null` come back as none
(`decode_encode_records`).

Nor does it matter how a record is laid out (`ignoresLayout_records`). A second tag is no further
member, though: an event in which the tag stands twice is refused (`ignoresLayout_fails_twice`).
-/

namespace Ripple

open Json (depthLimit)
open Codec Record

/-! ## Events -/

namespace Event

variable {event : Event} {layout : Json}

/-- Whether the count of an event is one of 64 bits. -/
def Counted : Event → Prop
  | .fileRecorded .. => True
  | .impactAnalyzed _ _ count _ | .searchPerformed _ _ count _ => count < 18446744073709551616

theorem readable_iff {n : ℕ} : (codec.write event).Readable (n + 1) ↔ event.Counted := by
  cases event <;>
    simp [codec, members, recordedFields, analyzedFields, searchFields, Fields.members, Counted]

/-- An event is read from each of its layouts. -/
theorem read_layout (h : event.Counted)
    (hlayout : Layout ((tag, .str event.name) :: event.members) layout) :
    codec.read layout.shown = .ok event := by
  change readTagged "internally tagged enum GraphEvent" tag kinds layout.shown = _
  cases event with
  | fileRecorded id path t =>
    have hgives : recordedFields.Gives (id, path, t, ()) (id, path, t, ()) :=
      ⟨gives_stringAs _ id, gives_stringAs _ path, gives_instant t, trivial⟩
    exact readTagged_layout recordedFields rfl (by decide) ⟨nofun, nofun, nofun, trivial⟩
      (Json.depth_eq_zero_of_mem rfl) hgives rfl hlayout
  | impactAnalyzed path depth count t =>
    have hgives : analyzedFields.Gives (path, depth, count, t, ()) (path, depth, count, t, ()) :=
      ⟨gives_stringAs _ path, gives_word32 depth, gives_count _ h, gives_instant t, trivial⟩
    exact readTagged_layout analyzedFields rfl (by decide) ⟨nofun, nofun, nofun, nofun, trivial⟩
      (Json.depth_eq_zero_of_mem rfl) hgives rfl hlayout
  | searchPerformed query limit count t =>
    have hgives : searchFields.Gives (query, limit, count, t, ()) (query, limit, count, t, ()) :=
      ⟨gives_stringAs _ query, gives_word64 _ limit, gives_count _ h, gives_instant t, trivial⟩
    exact readTagged_layout searchFields rfl (by decide) ⟨nofun, nofun, nofun, nofun, trivial⟩
      (Json.depth_eq_zero_of_mem rfl) hgives rfl hlayout

theorem decode_layout (h : event.Counted)
    (hlayout : Layout ((tag, .str event.name) :: event.members) layout) :
    codec.decode layout.text = .ok event :=
  (decode_text (hlayout.readable (readable_iff.2 h)) codec).trans (read_layout h hlayout)

theorem decode_encode (h : event.Counted) : codec.decode (codec.encode event) = .ok event :=
  decode_layout h (.refl _)

/-- An event can be decoded from each of its layouts if it can be written at all. -/
theorem ignoresLayout_codec : codec.IgnoresLayout := by
  intro event members layout hwrite hsound _ hlayout
  obtain rfl : (tag, .str event.name) :: event.members = members := Json.obj.inj hwrite
  have hdepth : (codec.write event).depth ≤ 1 := by cases event <;> exact Nat.le_refl 1
  exact decode_layout (readable_iff.1 ⟨hsound, hdepth⟩) hlayout

end Event

/-! ## Records without a tag -/

/-- A record is decoded from its text as what the codecs of its fields give. -/
theorem Record.decode_encode {α ρ : Type} {fields : Fields ρ} {expected : String} {there : α → ρ}
    {back : ρ → α} {v v' : α} {w : ρ} (hnames : fields.names.Nodup) (hnull : fields.OmitsNull)
    (hreadable : ∀ member ∈ fields.members (there v), member.2.Readable 126)
    (h : fields.Gives (there v) w) (hback : back w = v') :
    ((codec expected fields).map there back).decode
      (((codec expected fields).map there back).encode v) = .ok v' := by
  rw [← hback]
  exact decode_encode_of_gives ((readable_codec expected).2 hreadable)
    (gives_map (gives_codec hnames hnull h))

namespace Report

theorem decode_encode (report : Report) : codec.decode (codec.encode report) = .ok report :=
  Record.decode_encode (w := (_, _, _, ())) (by decide) ⟨nofun, nofun, nofun, trivial⟩
    (by simp [Fields.members])
    ⟨gives_stringAs _ _, gives_word32 _,
      gives_list (List.forall₂_same.2 fun _ _ => gives_stringAs _ _), trivial⟩ rfl

theorem ignoresLayout_codec : codec.IgnoresLayout :=
  Record.ignoresLayout_codec (by decide) ⟨nofun, nofun, nofun, trivial⟩
    ⟨heeds_of_flat fun _ => rfl, heeds_of_flat fun _ => rfl,
      heeds_list fun _ => Nat.zero_le _, trivial⟩

end Report

namespace Stats

/-- Whether all counts are of 64 bits. -/
def Counted (stats : Stats) : Prop :=
  stats.totalNodes < 18446744073709551616 ∧ stats.totalEdges < 18446744073709551616 ∧
    (∀ entry ∈ stats.nodesByKind, entry.2 < 18446744073709551616) ∧
    ∀ entry ∈ stats.edgesByRelationship, entry.2 < 18446744073709551616

theorem gives_tally {entries : List (String × ℕ)}
    (h : ∀ entry ∈ entries, entry.2 < 18446744073709551616) : tally.Gives entries entries :=
  gives_list (List.forall₂_same.2 fun entry hmem =>
    gives_pair (gives_stringAs _ _) (gives_count _ (h entry hmem)))

theorem decode_encode {stats : Stats} (h : stats.Counted) :
    codec.decode (codec.encode stats) = .ok stats := by
  obtain ⟨hnodes, hedges, hkinds, hrelationships⟩ := h
  refine Record.decode_encode (w := (_, _, _, _, ())) (by decide)
    ⟨nofun, nofun, nofun, nofun, trivial⟩ ?_
    ⟨gives_count _ hnodes, gives_count _ hedges, gives_tally hkinds, gives_tally hrelationships,
      trivial⟩ rfl
  simp [Fields.members, tally, hnodes, hedges]
  exact ⟨fun kind count hmem => hkinds (kind, count) hmem,
    fun relationship count hmem => hrelationships (relationship, count) hmem⟩

theorem heeds_tally : tally.Heeds := heeds_list fun _ => Nat.le_of_ble_eq_true rfl

theorem ignoresLayout_codec : codec.IgnoresLayout :=
  Record.ignoresLayout_codec (by decide) ⟨nofun, nofun, nofun, nofun, trivial⟩
    ⟨heeds_of_flat fun _ => rfl, heeds_of_flat fun _ => rfl,
      heeds_tally, heeds_tally, trivial⟩

end Stats

theorem StorageConfig.gives (config : StorageConfig) : StorageConfig.codec.Gives config config :=
  gives_map (w := (_, _, ())) (gives_codec (by decide) ⟨nofun, nofun, trivial⟩
    ⟨gives_stringAs _ _, gives_word32 _, trivial⟩)

theorem ImpactConfig.gives (config : ImpactConfig) : ImpactConfig.codec.Gives config config :=
  gives_map (w := (_, ())) (gives_codec (by decide) ⟨nofun, trivial⟩ ⟨gives_word32 _, trivial⟩)

theorem SearchConfig.gives (config : SearchConfig) : SearchConfig.codec.Gives config config :=
  gives_map (w := (_, ())) (gives_codec (by decide) ⟨nofun, trivial⟩ ⟨gives_word64 _ _, trivial⟩)

theorem Config.decode_encode (standard config : Config) :
    (Config.codec standard).decode ((Config.codec standard).encode config) = .ok config := by
  have hnames : ["storage", "impact", "search"].Nodup := by decide
  refine Record.decode_encode (w := (_, _, _, ())) hnames ⟨nofun, nofun, nofun, trivial⟩ ?_
    ⟨StorageConfig.gives _, ImpactConfig.gives _, SearchConfig.gives _, trivial⟩ rfl
  simp [Fields.members, StorageConfig.codec, ImpactConfig.codec, SearchConfig.codec]

/-! ## Records with metadata -/

/-- Whether metadata are read back from a record: all numbers are integers of 64 bits, and they nest
    no deeper than a member of a record may. -/
def Attachable (metadata : Option Json) : Prop :=
  ∀ value ∈ metadata, value.Ordered ∧ value.depth ≤ 126

variable {metadata : Option Json}

theorem Attachable.gives (h : Attachable metadata) :
    (optional json).Gives metadata (metadata.bind Json.unlessNull) :=
  gives_metadata fun value hmem => (h value hmem).1

theorem Attachable.readable (h : Attachable metadata) :
    ((optional json).write metadata).Readable 126 :=
  readable_optional_json.2 fun value hmem =>
    ⟨Json.Ordered.sound value (h value hmem).1, (h value hmem).2⟩

/-- An option that can be left out is the same if it is `null`. -/
theorem inObject?_of_read_null {α : Type} {codec : Codec α} {v : Option α}
    (h : (optional codec).read .null = .ok v) : (Omission.inObject none).inObject? = some v :=
  congrArg some (Except.ok.inj h)

namespace Node

theorem omitsNull_fields : fields.OmitsNull :=
  ⟨nofun, nofun, nofun, inObject?_of_read_null, inObject?_of_read_null, inObject?_of_read_null,
    nofun, trivial⟩

theorem decode_encode {node : Node} (h : Attachable node.metadata) :
    codec.decode (codec.encode node) =
      .ok { node with metadata := node.metadata.bind Json.unlessNull } :=
  Record.decode_encode (w := (_, _, _, _, _, _, _, ())) (by decide) omitsNull_fields
    (by simp [Fields.members, fields, h.readable])
    ⟨gives_stringAs _ _, gives_stringAs _ _, gives_stringAs _ _, gives_optional_string _,
      gives_optional_string _, h.gives, gives_instant _, trivial⟩ rfl

theorem ignoresLayout_codec : codec.IgnoresLayout :=
  Record.ignoresLayout_codec (by decide) omitsNull_fields
    ⟨heeds_of_flat fun _ => rfl, heeds_of_flat fun _ => rfl, heeds_of_flat fun _ => rfl,
      heeds_optional_string, heeds_optional_string, heeds_metadata, heeds_of_flat fun _ => rfl,
      trivial⟩

end Node

namespace NewEdge

theorem omitsNull_fields : fields.OmitsNull :=
  ⟨nofun, nofun, nofun, inObject?_of_read_null, trivial⟩

theorem heeds_fields : fields.Heeds :=
  ⟨heeds_of_flat fun _ => rfl, heeds_of_flat fun _ => rfl, heeds_of_flat fun _ => rfl,
    heeds_metadata, trivial⟩

theorem gives_fields (source target relationship : String) (h : Attachable metadata) :
    fields.Gives (source, target, relationship, metadata, ())
      (source, target, relationship, metadata.bind Json.unlessNull, ()) :=
  ⟨gives_stringAs _ _, gives_stringAs _ _, gives_stringAs _ _, h.gives, trivial⟩

theorem decode_encode {edge : NewEdge} (h : Attachable edge.metadata) :
    codec.decode (codec.encode edge) =
      .ok { edge with metadata := edge.metadata.bind Json.unlessNull } :=
  Record.decode_encode (by decide) omitsNull_fields (by simp [Fields.members, fields, h.readable])
    (gives_fields edge.source edge.target edge.relationship h) rfl

theorem ignoresLayout_codec : codec.IgnoresLayout :=
  Record.ignoresLayout_codec (by decide) omitsNull_fields heeds_fields

end NewEdge

namespace Edge

theorem decode_encode {edge : Edge}
    (hid : -9223372036854775808 ≤ edge.id ∧ edge.id ≤ 9223372036854775807)
    (h : Attachable edge.metadata) :
    codec.decode (codec.encode edge) =
      .ok { edge with metadata := edge.metadata.bind Json.unlessNull } := by
  have hwide : -9223372036854775808 ≤ edge.id ∧ edge.id < 18446744073709551616 := by omega
  exact Record.decode_encode (w := (_, _, _, _, _, ())) (by decide)
    ⟨nofun, NewEdge.omitsNull_fields⟩ (by simp [Fields.members, NewEdge.fields, h.readable, hwide])
    ⟨gives_int64 hid, NewEdge.gives_fields edge.source edge.target edge.relationship h⟩ rfl

theorem ignoresLayout_codec : codec.IgnoresLayout :=
  Record.ignoresLayout_codec (by decide) ⟨nofun, NewEdge.omitsNull_fields⟩
    ⟨heeds_of_flat fun _ => rfl, NewEdge.heeds_fields⟩

end Edge

/-! ## All records -/

/-- Records are decoded from their text as they were, except that metadata which are `null` come
    back as none. -/
theorem decode_encode_records (standard : Config) :
    (∀ event : Event, event.Counted →
      Event.codec.decode (Event.codec.encode event) = .ok event) ∧
    (∀ report : Report, Report.codec.decode (Report.codec.encode report) = .ok report) ∧
    (∀ stats : Stats, stats.Counted →
      Stats.codec.decode (Stats.codec.encode stats) = .ok stats) ∧
    (∀ config : Config,
      (Config.codec standard).decode ((Config.codec standard).encode config) = .ok config) ∧
    (∀ node : Node, Attachable node.metadata → Node.codec.decode (Node.codec.encode node) =
      .ok { node with metadata := node.metadata.bind Json.unlessNull }) ∧
    (∀ edge : Edge, -9223372036854775808 ≤ edge.id ∧ edge.id ≤ 9223372036854775807 →
      Attachable edge.metadata → Edge.codec.decode (Edge.codec.encode edge) =
        .ok { edge with metadata := edge.metadata.bind Json.unlessNull }) ∧
    (∀ edge : NewEdge, Attachable edge.metadata →
      NewEdge.codec.decode (NewEdge.codec.encode edge) =
        .ok { edge with metadata := edge.metadata.bind Json.unlessNull }) :=
  ⟨fun _ => Event.decode_encode, Report.decode_encode, fun _ => Stats.decode_encode,
    Config.decode_encode standard, fun _ => Node.decode_encode, fun _ => Edge.decode_encode,
    fun _ => NewEdge.decode_encode⟩

/-- The largest count comes back at a leap second of the year 10000, nested metadata at one before
    the year 0, and `null` as none. -/
theorem decode_encode_records_extremes :
    let late : Instant := ⟨253402300859, 1500000000, by decide⟩
    let early : Instant := ⟨-62167219201, 1999999999, by decide⟩
    let metadata : Json := .obj [("a", .arr [.obj [("é\"\\", .int (-9223372036854775808))],
      .str "\x07", .arr [], .int 18446744073709551615]), ("b", .null)]
    Event.codec.decode (Event.codec.encode (.searchPerformed "" 0 18446744073709551615 late)) =
        .ok (.searchPerformed "" 0 18446744073709551615 late) ∧
    Node.codec.decode (Node.codec.encode ⟨"a", "note", "", none, none, some metadata, early⟩) =
        .ok ⟨"a", "note", "", none, none, some metadata, early⟩ ∧
    Node.codec.decode (Node.codec.encode ⟨"a", "note", "", none, none, some .null, early⟩) =
        .ok ⟨"a", "note", "", none, none, none, early⟩ := by
  intro late early metadata
  obtain ⟨hevent, -, -, -, hnode, -⟩ := decode_encode_records ⟨⟨"a.db", 5⟩, ⟨3⟩, ⟨10⟩⟩
  have hordered : metadata.Ordered := by
    refine ⟨by decide, ?_⟩
    simp [Json.OrderedMembers, Json.OrderedMember, Json.Ordered, Json.OrderedItems, Json.int]
  refine ⟨hevent _ (by simp [Event.Counted]), hnode _ ?_, hnode _ ?_⟩
  · exact fun value hvalue => Option.some.inj hvalue ▸ ⟨hordered, by decide⟩
  · simp [Attachable, Json.Ordered, Json.depth]

/-- Records are decoded from all of their layouts. -/
theorem ignoresLayout_records :
    Node.codec.IgnoresLayout ∧ Edge.codec.IgnoresLayout ∧ NewEdge.codec.IgnoresLayout ∧
      Event.codec.IgnoresLayout ∧ Report.codec.IgnoresLayout ∧ Stats.codec.IgnoresLayout :=
  ⟨Node.ignoresLayout_codec, Edge.ignoresLayout_codec, NewEdge.ignoresLayout_codec,
    Event.ignoresLayout_codec, Report.ignoresLayout_codec, Stats.ignoresLayout_codec⟩

/-- The tag of an event can come last, after a member that is none of the event's. -/
theorem ignoresLayout_records_late :
    Event.codec.decode (Json.obj [("note", .arr [.null]), ("timestamp", .str "1970-01-01T00:00:00Z"),
      ("file_path", .str "a.rs"), ("node_id", .str "file:a.rs"),
      ("event_type", .str "file_recorded")]).text =
        .ok (.fileRecorded "file:a.rs" "a.rs" Instant.epoch) := by
  obtain ⟨-, -, -, hevent, -⟩ := ignoresLayout_records
  have hcounted : (Event.fileRecorded "file:a.rs" "a.rs" Instant.epoch).Counted := trivial
  have htext : Instant.epoch.recordText = "1970-01-01T00:00:00Z" := by decide
  refine hevent (.fileRecorded "file:a.rs" "a.rs" Instant.epoch)
    [("event_type", .str "file_recorded"), ("node_id", .str "file:a.rs"),
      ("file_path", .str "a.rs"), ("timestamp", .str "1970-01-01T00:00:00Z")] _
    (by rw [← htext]; rfl) ((Event.readable_iff (n := 0)).2 hcounted).1
    (Event.decode_encode hcounted) ?_
  exact @Layout.of_perm _ [("note", .arr [.null])] _ (by simp) (List.reverse_perm _).symm

/-- An event with a second tag is not decoded, although a tag is no field of the event. -/
theorem ignoresLayout_fails_twice :
    let event := Event.fileRecorded "file:a.rs" "a.rs" Instant.epoch
    Event.codec.decode (Event.codec.encode event) = .ok event ∧
      "event_type" ∉ Event.recordedFields.names ∧
      Event.codec.decode (Json.obj ((Event.tag, .str event.name) :: event.members ++
        [("event_type", .str event.name)])).text = .error (.duplicateField "event_type") := by
  intro event
  have hreadable : (Json.obj ((Event.tag, .str event.name) :: event.members ++
      [("event_type", .str event.name)])).Readable depthLimit := by
    have hevent : (Event.codec.write event).Readable depthLimit := Event.readable_iff.2 trivial
    exact Json.readable_obj.2
      (List.forall_mem_append.2 ⟨Json.readable_obj.1 hevent, by simp⟩)
  refine ⟨Event.decode_encode trivial, by decide, ?_⟩
  rw [decode_text hreadable]
  rfl

end Ripple
