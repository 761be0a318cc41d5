import Ripple.Graph.Node
import Ripple.Graph.Edge
import Ripple.Graph.Event
import Ripple.Graph.Report
import Ripple.Record.Tagged

/-!
# Records of the graph

The codecs of nodes, edges, events, reports and sizes.
-/

namespace Ripple

open Record (Fields Kind)

/-- The fields of a node. -/
def Node.fields : Fields (String × String × String × Option String × Option String ×
    Option Json × Instant × Unit) :=
  .field "id" .string .never <|
  .field "type" .string .never <|
  .field "name" .string .never <|
  .field "file_path" (.optional .string) (.inObject none) <|
  .field "content" (.optional .string) (.inObject none) <|
  .field "metadata" (.optional .json) (.inObject none) <|
  .field "updated_at" .instant .never .done

/-- The codec of nodes. -/
def Node.codec : Codec Node :=
  (Record.codec "struct Node" fields).map
    (fun n => (n.id, n.kind, n.name, n.filePath, n.content, n.metadata, n.updatedAt, ()))
    fun (id, kind, name, filePath, content, metadata, updatedAt, _) =>
      ⟨id, kind, name, filePath, content, metadata, updatedAt⟩

/-- The fields of an edge that is to be stored. -/
def NewEdge.fields : Fields (String × String × String × Option Json × Unit) :=
  .field "source_id" .string .never <|
  .field "target_id" .string .never <|
  .field "relationship" .string .never <|
  .field "metadata" (.optional .json) (.inObject none) .done

/-- The codec of edges that are to be stored. -/
def NewEdge.codec : Codec NewEdge :=
  (Record.codec "struct NewEdge" fields).map
    (fun e => (e.source, e.target, e.relationship, e.metadata, ()))
    fun (source, target, relationship, metadata, _) => ⟨source, target, relationship, metadata⟩

/-- The codec of stored edges. -/
def Edge.codec : Codec Edge :=
  (Record.codec "struct Edge" (.field "id" .int64 .never NewEdge.fields)).map
    (fun e => (e.id, e.source, e.target, e.relationship, e.metadata, ()))
    fun (id, source, target, relationship, metadata, _) =>
      ⟨id, source, target, relationship, metadata⟩

/-- The codec of reports. -/
def Report.codec : Codec Report :=
  (Record.codec "struct ImpactReport" <|
    .field "file_path" .string .never <|
    .field "depth" .word32 .never <|
    .field "impacted_files" (.list .string) .never .done).map
    (fun r => (r.filePath, r.depth, r.files, ()))
    fun (filePath, depth, files, _) => ⟨filePath, depth, files⟩

/-- The codec of a list of labels with their counts. -/
def Stats.tally : Codec (List (String × Nat)) :=
  .list (Record.pairCodec .string (.count "u64"))

/-- The codec of sizes. -/
def Stats.codec : Codec Stats :=
  (Record.codec "struct GraphStats" <|
    .field "total_nodes" (.count "u64") .never <|
    .field "total_edges" (.count "u64") .never <|
    .field "nodes_by_type" tally .never <|
    .field "edges_by_relationship" tally .never .done).map
    (fun s => (s.totalNodes, s.totalEdges, s.nodesByKind, s.edgesByRelationship, ()))
    fun (nodes, edges, kinds, relationships, _) => ⟨nodes, edges, kinds, relationships⟩

namespace Event

/-- The name of the member that tells the kind of an event. -/
def tag : String := "event_type"

/-- The fields of a recorded file. -/
def recordedFields : Fields (String × String × Instant × Unit) :=
  .field "node_id" .string .never <|
  .field "file_path" .string .never <|
  .field "timestamp" .instant .never .done

/-- The fields of an analysis. -/
def analyzedFields : Fields (String × UInt32 × Nat × Instant × Unit) :=
  .field "file_path" .string .never <|
  .field "depth" .word32 .never <|
  .field "impacted_count" (.count "usize") .never <|
  .field "timestamp" .instant .never .done

/-- The fields of a search. -/
def searchFields : Fields (String × UInt64 × Nat × Instant × Unit) :=
  .field "query" .string .never <|
  .field "limit" (.word64 "usize") .never <|
  .field "result_count" (.count "usize") .never <|
  .field "timestamp" .instant .never .done

/-- The kinds of events. -/
def kinds : List (String × Kind Event) := [
  ("file_recorded", .ofFields "struct variant GraphEvent::FileRecorded" recordedFields
    fun (id, path, t, _) => .fileRecorded id path t),
  ("impact_analyzed", .ofFields "struct variant GraphEvent::ImpactAnalyzed" analyzedFields
    fun (path, depth, count, t, _) => .impactAnalyzed path depth count t),
  ("search_performed", .ofFields "struct variant GraphEvent::SearchPerformed" searchFields
    fun (query, limit, count, t, _) => .searchPerformed query limit count t)]

/-- The members of an event other than the tag. -/
def members : Event → List (String × Json)
  | .fileRecorded id path t => recordedFields.members (id, path, t, ())
  | .impactAnalyzed path depth count t => analyzedFields.members (path, depth, count, t, ())
  | .searchPerformed query limit count t => searchFields.members (query, limit, count, t, ())

/-- The codec of events. -/
def codec : Codec Event where
  read := Record.readTagged "internally tagged enum GraphEvent" tag kinds
  write event := .obj ((tag, .str event.name) :: event.members)

end Event

end Ripple
