import HarnessControl.Harnesses.ContentRetention

/-!
# Opening a directory again

A directory with the two files of every object, as publications leave it, is loaded whole: each
object has the entry that its metadata tells of.
-/

namespace HarnessControl.Harnesses

open HarnessControl.Library HarnessControl.Protocol

namespace ContentStore

variable {Stamp : Type}

/-! ## The names of files -/

theorem binFile_inj {id other : String} : binFile id = binFile other ↔ id = other := by
  constructor
  · intro h
    have hlist := congrArg String.toList h
    unfold binFile at hlist
    rw [String.toList_append, String.toList_append] at hlist
    exact String.toList_inj.mp (List.append_cancel_right hlist)
  · rintro rfl
    rfl

theorem jsonFile_inj {id other : String} : jsonFile id = jsonFile other ↔ id = other := by
  constructor
  · intro h
    have hlist := congrArg String.toList h
    unfold jsonFile at hlist
    rw [String.toList_append, String.toList_append] at hlist
    exact String.toList_inj.mp (List.append_cancel_right hlist)
  · rintro rfl
    rfl

theorem jsonFile_ne_binFile (id other : String) : jsonFile id ≠ binFile other := by
  intro h
  have hlist := congrArg (fun name => name.toList.reverse) h
  unfold jsonFile binFile at hlist
  rw [String.toList_append, String.toList_append, List.reverse_append, List.reverse_append] at hlist
  have htail := (List.cons.inj hlist).2
  exact absurd (List.cons.inj htail).1 (by decide)

theorem length_of_hex {id : String} (hid : sha256Hex id = true) : id.toList.length = 64 := by
  unfold sha256Hex at hid
  rw [Bool.and_eq_true, beq_iff_eq] at hid
  exact hid.1

theorem objectId?_append {id : String} (hid : sha256Hex id = true) (suffix ending : String) :
    objectId? suffix (id ++ ending) =
      if ending.toList = '.' :: suffix.toList then some id else none := by
  have hlength := length_of_hex hid
  unfold objectId?
  rw [String.toList_append, List.take_left' hlength, List.drop_left' hlength,
    String.ofList_toList]
  simp only [hid, true_and]

/-! ## Objects -/

/-- Metadata with the body it tells of. -/
structure StoredObject where
  metadata : ContentMetadata
  body : List UInt8
  schema : contentReferenceSchema metadata.reference = true
  length : body.length = metadata.reference.byteLength

namespace StoredObject

def id (object : StoredObject) : String := object.metadata.reference.contentId

theorem id_hex (object : StoredObject) : sha256Hex object.id = true := by
  have hschema := object.schema
  unfold contentReferenceSchema at hschema
  rw [Bool.and_eq_true, Bool.and_eq_true, Bool.and_eq_true] at hschema
  exact hschema.1.1.1

def entry (object : StoredObject) : String × ContentEntry Stamp :=
  (object.id, ⟨object.metadata, none, none⟩)

end StoredObject

variable {parse : List UInt8 → Option ContentMetadata} {stringify : ContentMetadata → List UInt8}
  {stamp : Stamp} {objects : List StoredObject}

def objectFiles (stringify : ContentMetadata → List UInt8) (stamp : Stamp)
    (object : StoredObject) : List (String × DiskFile Stamp) :=
  [(jsonFile object.id, ⟨stringify object.metadata, false, 1, stamp⟩),
    (binFile object.id, ⟨object.body, false, 1, stamp⟩)]

theorem objectFiles_nodup (hnodup : (objects.map StoredObject.id).Nodup) :
    ((objects.flatMap (objectFiles stringify stamp)).map Prod.fst).Nodup := by
  rw [List.map_flatMap]
  show (objects.flatMap fun object => [jsonFile object.id, binFile object.id]).Nodup
  rw [List.nodup_flatMap]
  constructor
  · intro object _
    rw [List.nodup_cons, List.mem_singleton]
    exact ⟨jsonFile_ne_binFile _ _, List.nodup_singleton _⟩
  · apply (List.pairwise_map.mp hnodup).imp
    intro object other hne name hfirst hsecond
    rw [List.mem_cons, List.mem_singleton] at hfirst hsecond
    obtain rfl | rfl := hfirst
    · obtain heq | heq := hsecond
      · exact hne (jsonFile_inj.mp heq)
      · exact jsonFile_ne_binFile _ _ heq
    · obtain heq | heq := hsecond
      · exact jsonFile_ne_binFile _ _ heq.symm
      · exact hne (binFile_inj.mp heq)

def objectDirectory (stringify : ContentMetadata → List UInt8) (stamp : Stamp)
    (objects : List StoredObject) (hnodup : (objects.map StoredObject.id).Nodup) :
    Dict String (DiskFile Stamp) :=
  ⟨objects.flatMap (objectFiles stringify stamp), objectFiles_nodup hnodup⟩

theorem usable_json {files : Dict String (DiskFile Stamp)} {object : StoredObject}
    (hparse : parse (stringify object.metadata) = some object.metadata)
    (hbin : files.get? (binFile object.id) = some ⟨object.body, false, 1, stamp⟩) :
    usable parse files (jsonFile object.id, ⟨stringify object.metadata, false, 1, stamp⟩) =
      some object.metadata := by
  have hname : objectId? "json" (jsonFile object.id) = some object.id := by
    unfold jsonFile
    rw [objectId?_append object.id_hex]
    rfl
  have hread : readMetadata parse (stringify object.metadata) = some object.metadata := by
    unfold readMetadata
    rw [hparse, Option.bind_some, if_pos object.schema]
  have hbody : files.get? (binFile object.metadata.reference.contentId) =
      some ⟨object.body, false, 1, stamp⟩ := hbin
  unfold usable
  dsimp only
  rw [hname, hread]
  dsimp only
  have hsame : ¬jsonFile object.id ≠ jsonFile object.metadata.reference.contentId :=
    not_not.mpr rfl
  rw [hbody, if_neg hsame]
  exact if_pos object.length

theorem usable_bin (files : Dict String (DiskFile Stamp)) (object : StoredObject)
    (file : DiskFile Stamp) : usable parse files (binFile object.id, file) = none := by
  have hname : objectId? "json" (binFile object.id) = none := by
    unfold binFile
    rw [objectId?_append object.id_hex]
    rfl
  unfold usable
  dsimp only
  rw [hname]

theorem foldl_loadFile {files : Dict String (DiskFile Stamp)}
    {entries : Dict String (ContentEntry Stamp)}
    (hparse : ∀ object ∈ objects, parse (stringify object.metadata) = some object.metadata)
    (hbin : ∀ object ∈ objects,
      files.get? (binFile object.id) = some ⟨object.body, false, 1, stamp⟩)
    (hnodup : (objects.map StoredObject.id).Nodup)
    (hnew : ∀ object ∈ objects, entries.get? object.id = none) :
    ((objects.flatMap (objectFiles stringify stamp)).foldl (loadFile parse files) entries).entries =
      entries.entries ++ objects.map StoredObject.entry := by
  induction objects generalizing entries with
  | nil => exact (List.append_nil _).symm
  | cons object rest ih =>
    obtain ⟨hparseObject, hparseRest⟩ := List.forall_mem_cons.mp hparse
    obtain ⟨hbinObject, hbinRest⟩ := List.forall_mem_cons.mp hbin
    obtain ⟨hnewObject, hnewRest⟩ := List.forall_mem_cons.mp hnew
    rw [List.map_cons, List.nodup_cons] at hnodup
    have hjson : loadFile parse files entries
        (jsonFile object.id, ⟨stringify object.metadata, false, 1, stamp⟩) =
          entries.set object.id ⟨object.metadata, none, none⟩ := by
      unfold loadFile
      rw [usable_json hparseObject hbinObject]
      rfl
    have hrest : ∀ other ∈ rest,
        (entries.set object.id ⟨object.metadata, none, none⟩).get? other.id = none := by
      intro other hother
      have hne : other.id ≠ object.id := by
        intro heq
        apply hnodup.1
        rw [← heq]
        exact List.mem_map_of_mem hother
      rw [Dict.get?_set_of_ne _ _ hne]
      exact hnewRest other hother
    have hskip : ∀ loaded, loadFile parse files loaded
        (binFile object.id, ⟨object.body, false, 1, stamp⟩) = loaded := by
      intro loaded
      unfold loadFile
      rw [usable_bin]
    have hobject : (objectFiles stringify stamp object).foldl (loadFile parse files) entries =
        entries.set object.id ⟨object.metadata, none, none⟩ := by
      unfold objectFiles
      rw [List.foldl_cons, hjson, List.foldl_cons, hskip, List.foldl_nil]
    rw [List.flatMap_cons, List.foldl_append, hobject, ih hparseRest hbinRest hnodup.2 hrest,
      Dict.entries_set_of_none _ hnewObject, List.append_assoc]
    rfl

theorem loadEntries_objects
    (hparse : ∀ object ∈ objects, parse (stringify object.metadata) = some object.metadata)
    (hnodup : (objects.map StoredObject.id).Nodup) :
    (loadEntries parse (objectDirectory stringify stamp objects hnodup)).entries =
      objects.map StoredObject.entry := by
  have hbin : ∀ object ∈ objects, (objectDirectory stringify stamp objects hnodup).get?
      (binFile object.id) = some ⟨object.body, false, 1, stamp⟩ := by
    intro object hobject
    rw [Dict.get?_eq_some_iff]
    exact List.mem_flatMap.mpr ⟨object, hobject, List.mem_cons_of_mem _ List.mem_cons_self⟩
  exact @foldl_loadFile _ _ _ _ _ _ Dict.empty hparse hbin hnodup fun _ _ => rfl

end ContentStore

end HarnessControl.Harnesses
