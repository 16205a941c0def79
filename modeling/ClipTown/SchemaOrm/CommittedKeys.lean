/-
  ClipTown.SchemaOrm.CommittedKeys — the stable entity keys of the committed
  descriptors (`generated/shared/typescript/entity-descriptors.ts`).

  A key is the name of the entity and the encoded values of its primary key,
  joined by colons.  No name has a colon and no encoding writes one, so the parts
  of a key can be told apart, and each of them says which value it is from.

    • `joinedKey_inj` — a key determines the entity and the values,
    • `stableEntityKey_injective` — so does one of a committed entity, for every
      two records whose keys are texts.
-/
import ClipTown.SchemaOrm.EntityKeys

namespace ClipTown.SchemaOrm

open PercentEncoding Separators

/-! ## §1. The committed descriptors. -/

/-- `entityDescriptors`. -/
def committedDescriptors : List (Descriptor String) :=
  [{ entity := "Device"
     interfaceType := "DeviceRegistration"
     table := "cliptown_devices"
     primaryKey := ["id"]
     requiredFields :=
       ["id", "ownerSubject", "label", "publicKey", "status", "createdAt", "updatedAt"] },
   { entity := "EncryptedObject"
     interfaceType := "EncryptedObjectManifest"
     table := "cliptown_encrypted_objects"
     primaryKey := ["id"]
     requiredFields :=
       ["id", "ownerSubject", "storageKey", "ciphertextSha256", "sizeBytes", "chunkCount",
         "manifest", "createdAt"] },
   { entity := "ClipRecord"
     interfaceType := "ClipEnvelope"
     table := "cliptown_clip_records"
     primaryKey := ["id"]
     requiredFields :=
       ["id", "ownerSubject", "deviceId", "encryptedObjectId", "mediaType", "ciphertextSha256",
         "sizeBytes", "logicalClock", "createdAt"] },
   { entity := "ObjectGrant"
     interfaceType := "EncryptedObjectGrant"
     table := "cliptown_object_grants"
     primaryKey := ["id"]
     requiredFields :=
       ["id", "encryptedObjectId", "recipientSubject", "wrappedKey", "algorithm", "createdAt"] },
   { entity := "SyncCursor"
     interfaceType := "SyncCursor"
     table := "cliptown_sync_cursors"
     primaryKey := ["deviceId", "stream"]
     requiredFields := ["deviceId", "stream", "lastLogicalClock", "updatedAt"] }]

/-- The entities have names of their own, and no name has a colon. -/
theorem committed_entities : (committedDescriptors.map (·.entity)).Nodup
    ∧ ∀ d ∈ committedDescriptors, ':' ∉ d.entity.toList := by
  decide

/-! ## §2. What a key says. -/

/-- The parts of a key. -/
def keyParts (e : Escaper) (descriptor : Descriptor String) (record : Record) :
    List (List Char) :=
  descriptor.entity.toList
    :: descriptor.primaryKey.map fun field => e.encode (keyText record field).toList

/-- A key is its parts, joined. -/
theorem toList_joinedKey (e : Escaper) (descriptor : Descriptor String) (record : Record) :
    ':' :: (joinedKey e descriptor record).toList
      = separated ':' (keyParts e descriptor record) := by
  have hparts : String.toList ∘ (fun field => escapeText e (keyText record field))
      = fun field => e.encode (keyText record field).toList :=
    funext fun field => String.toList_ofList
  unfold joinedKey keyParts
  rw [String.toList_intercalate, List.map_cons, List.map_map, hparts, separated_cons]
  exact congrArg (':' :: ·) (intercalate_cons ':' _ _)

/-- No part of a key has the separator. -/
theorem colon_not_mem_keyParts {e : Escaper} (he : e.unreserved ':' = false)
    {descriptor : Descriptor String} (hentity : ':' ∉ descriptor.entity.toList) (record : Record) :
    ∀ part ∈ keyParts e descriptor record, ':' ∉ part := by
  intro part hpart
  unfold keyParts at hpart
  rcases List.mem_cons.mp hpart with rfl | hpart
  · exact hentity
  · obtain ⟨field, _, rfl⟩ := List.mem_map.mp hpart
    exact e.not_mem_encode he (by decide) _

/-- **A key determines its entity and its values**, where entities with one name have one
primary key. -/
theorem joinedKey_inj {e : Escaper} (he : e.unreserved ':' = false) {d d' : Descriptor String}
    (hd : ':' ∉ d.entity.toList) (hd' : ':' ∉ d'.entity.toList)
    (hkey : d.entity = d'.entity → d.primaryKey = d'.primaryKey) {r r' : Record} :
    joinedKey e d r = joinedKey e d' r'
      ↔ d.entity = d'.entity ∧ ∀ field ∈ d.primaryKey, keyText r field = keyText r' field := by
  constructor
  · intro h
    have hjoined : separated ':' (keyParts e d r) = separated ':' (keyParts e d' r') := by
      rw [← toList_joinedKey, ← toList_joinedKey, h]
    have hparts := separated_inj (colon_not_mem_keyParts he hd r)
      (colon_not_mem_keyParts he hd' r') hjoined
    obtain ⟨hname, hvalues⟩ := List.cons.inj hparts
    have hentity := String.toList_inj.mp hname
    refine ⟨hentity, ?_⟩
    rw [← hkey hentity, List.map_inj_left] at hvalues
    intro field hfield
    exact String.toList_inj.mp (e.encode_injective (hvalues field hfield))
  · intro h
    obtain ⟨hentity, hvalues⟩ := h
    unfold joinedKey
    rw [← hentity, ← hkey hentity]
    refine congrArg (fun parts => ":".intercalate (d.entity :: parts)) (List.map_inj_left.mpr ?_)
    intro field hfield
    rw [hvalues field hfield]

/-- Members that are texts are equal iff their texts are. -/
theorem keyText_eq_iff {d : Descriptor String} {r r' : Record} (hr : HasTextKey d r)
    (hr' : HasTextKey d r') {field : String} (hfield : field ∈ d.primaryKey) :
    keyText r field = keyText r' field ↔ r field = r' field := by
  obtain ⟨v, hv, _⟩ := hr field hfield
  obtain ⟨v', hv', _⟩ := hr' field hfield
  unfold keyText
  rw [hv, hv', Option.some.injEq, RecordValue.text.injEq]
  rfl

/-- **The key of a committed entity is injective**: two records whose key members are
texts and not empty have a key each, and these are equal iff the entities are and the
members are, one by one. -/
theorem stableEntityKey_injective {d d' : Descriptor String} (hd : d ∈ committedDescriptors)
    (hd' : d' ∈ committedDescriptors) {r r' : Record} (hr : HasTextKey d r)
    (hr' : HasTextKey d' r') :
    ∃ key key', stableEntityKey committedDescriptors d.entity r = .ok key
      ∧ stableEntityKey committedDescriptors d'.entity r' = .ok key'
      ∧ (key = key' ↔ d.entity = d'.entity ∧ ∀ field ∈ d.primaryKey, r field = r' field) := by
  obtain ⟨hnames, hcolon⟩ := committed_entities
  have hempty : ∀ v, v ≠ "" → RecordValue.isEmptyText (.text v) = false :=
    fun v hv => decide_eq_false hv
  have hunique : d.entity = d'.entity → d = d' :=
    fun h => List.inj_on_of_nodup_map hnames hd hd' h
  refine ⟨joinedKey encodeURIComponent d r, joinedKey encodeURIComponent d' r',
    entityKey_text (Checks.find?_of_nodup hnames hd) hr hempty,
    entityKey_text (Checks.find?_of_nodup hnames hd') hr' hempty, ?_⟩
  rw [joinedKey_inj (by decide) (hcolon d hd) (hcolon d' hd')
    (fun h => congrArg Descriptor.primaryKey (hunique h))]
  refine and_congr_right ?_
  intro hentity
  obtain rfl := hunique hentity
  refine forall₂_congr ?_
  intro field hfield
  exact keyText_eq_iff hr hr' hfield

/-- A cursor, of a device and a stream. -/
def cursor (deviceId stream : String) : Record
  | "deviceId" => some (.text deviceId)
  | "stream" => some (.text stream)
  | _ => none

/-- Colons, percent signs and characters of several bytes in the members: the one text
that both cursors spell does not make them one. -/
theorem stableEntityKey_injective_cursor : ∃ key key',
    stableEntityKey committedDescriptors "SyncCursor" (cursor "a:é%3A" "b") = .ok key
      ∧ stableEntityKey committedDescriptors "SyncCursor" (cursor "a" "é::b") = .ok key'
      ∧ key ≠ key' := by
  have hmem : committedDescriptors.getLast (by decide) ∈ committedDescriptors :=
    List.getLast_mem _
  have hkey : (committedDescriptors.getLast (by decide)).primaryKey = ["deviceId", "stream"] := rfl
  have hcursor : ∀ deviceId stream, deviceId ≠ "" → stream ≠ "" →
      HasTextKey (committedDescriptors.getLast (by decide)) (cursor deviceId stream) := by
    intro deviceId stream hdevice hstream field hfield
    rw [hkey] at hfield
    rcases List.mem_cons.mp hfield with rfl | hfield
    · exact ⟨deviceId, rfl, hdevice⟩
    · rw [List.mem_singleton] at hfield
      exact ⟨stream, by rw [hfield]; rfl, hstream⟩
  obtain ⟨key, key', hok, hok', hiff⟩ := stableEntityKey_injective hmem hmem
    (hcursor "a:é%3A" "b" (by decide) (by decide)) (hcursor "a" "é::b" (by decide) (by decide))
  refine ⟨key, key', hok, hok', ?_⟩
  intro heq
  have hdevice := (hiff.mp heq).2 "deviceId" (by rw [hkey]; decide)
  have htext := RecordValue.text.inj (Option.some.inj hdevice)
  exact absurd htext (by decide)

end ClipTown.SchemaOrm
