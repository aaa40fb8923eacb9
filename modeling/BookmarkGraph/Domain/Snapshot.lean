import BookmarkGraph.Json.Reader

/-!
# Snapshots of the marketplace

A snapshot is a copy of the five tables that the graph is built from: profiles, agencies,
categories, listings, and the bookmarks that profiles keep of listings. Snapshots are read from JSON
documents and written as such.

In a document, fields with a default may be missing and unknown fields are skipped. What is written
holds every field.

## Contents

* `ProfileRecord`, `AgencyRecord`, `CategoryRecord`, `ListingRecord`, `BookmarkRecord`, `Snapshot`;
* `Snapshot.ofDocument`: reading;
* `Snapshot.toJson`: writing.
-/

namespace BookmarkGraph

/-! ## Tables -/

/-- A user. -/
structure ProfileRecord where
  /-- The primary key. -/
  id : UInt64
  /-- The login name. -/
  username : String
  /-- The highest role held. -/
  role : Option String := none
  /-- The agencies that the profile belongs to. -/
  organizations : List UInt64 := []
  /-- The agencies that the profile is a steward for. -/
  stewardedOrganizations : List UInt64 := []
deriving DecidableEq, Repr

/-- An agency. -/
structure AgencyRecord where
  /-- The primary key. -/
  id : UInt64
  /-- The title. -/
  title : String
  /-- The abbreviation. -/
  shortName : String := ""
deriving DecidableEq, Repr

/-- A category of listings. -/
structure CategoryRecord where
  /-- The primary key. -/
  id : UInt64
  /-- The title. -/
  title : String
deriving DecidableEq, Repr

/-- A listing. -/
structure ListingRecord where
  /-- The primary key. -/
  id : UInt64
  /-- The title. -/
  title : String
  /-- A free text. -/
  description : Option String := none
  /-- Whether its owners have switched the listing on. -/
  isEnabled : Bool := true
  /-- Whether the listing counts as deleted. -/
  isDeleted : Bool := false
  /-- Whether the listing is featured. -/
  isFeatured : Bool := false
  /-- Whether the listing is visible only inside its agency. -/
  isPrivate : Bool := false
  /-- The state of its review. -/
  approvalStatus : String := "APPROVED"
  /-- The categories of the listing. -/
  categories : List UInt64 := []
  /-- The agency that owns the listing. -/
  agency : Option UInt64 := none
deriving DecidableEq, Repr

/-- A profile keeps a bookmark of a listing. -/
structure BookmarkRecord where
  /-- The profile. -/
  profile : UInt64
  /-- The listing. -/
  listing : UInt64
deriving DecidableEq, Repr

/-- A copy of every table. -/
structure Snapshot where
  /-- The profiles. -/
  profiles : List ProfileRecord := []
  /-- The agencies. -/
  agencies : List AgencyRecord := []
  /-- The categories. -/
  categories : List CategoryRecord := []
  /-- The listings. -/
  listings : List ListingRecord := []
  /-- The bookmarks. -/
  bookmarks : List BookmarkRecord := []
deriving DecidableEq, Repr

/-! ## Reading -/

/-- A field whose value is read by `reader` and entered by `set`. -/
def Field.of {α β : Type} (name : String) (required : Bool) (reader : Reader β)
    (set : α → β → α) : Field α where
  name
  required
  read x := fun bound depth input ↦ do
    let (value, rest) ← reader bound depth input
    return (set x value, rest)

namespace ProfileRecord

def fields : List (Field ProfileRecord) := [
  .of "id" true .unsigned fun r v ↦ { r with id := v },
  .of "username" true .string fun r v ↦ { r with username := v },
  .of "role" false (.optional .string) fun r v ↦ { r with role := v },
  .of "organizations" false (.list .unsigned) fun r v ↦ { r with organizations := v },
  .of "stewarded_organizations" false (.list .unsigned) fun r v ↦
    { r with stewardedOrganizations := v }]

def reader : Reader ProfileRecord := .record ⟨0, "", none, [], []⟩ fields

end ProfileRecord

namespace AgencyRecord

def fields : List (Field AgencyRecord) := [
  .of "id" true .unsigned fun r v ↦ { r with id := v },
  .of "title" true .string fun r v ↦ { r with title := v },
  .of "short_name" false .string fun r v ↦ { r with shortName := v }]

def reader : Reader AgencyRecord := .record ⟨0, "", ""⟩ fields

end AgencyRecord

namespace CategoryRecord

def fields : List (Field CategoryRecord) := [
  .of "id" true .unsigned fun r v ↦ { r with id := v },
  .of "title" true .string fun r v ↦ { r with title := v }]

def reader : Reader CategoryRecord := .record ⟨0, ""⟩ fields

end CategoryRecord

namespace ListingRecord

def fields : List (Field ListingRecord) := [
  .of "id" true .unsigned fun r v ↦ { r with id := v },
  .of "title" true .string fun r v ↦ { r with title := v },
  .of "description" false (.optional .string) fun r v ↦ { r with description := v },
  .of "is_enabled" false .bool fun r v ↦ { r with isEnabled := v },
  .of "is_deleted" false .bool fun r v ↦ { r with isDeleted := v },
  .of "is_featured" false .bool fun r v ↦ { r with isFeatured := v },
  .of "is_private" false .bool fun r v ↦ { r with isPrivate := v },
  .of "approval_status" false .string fun r v ↦ { r with approvalStatus := v },
  .of "categories" false (.list .unsigned) fun r v ↦ { r with categories := v },
  .of "agency" false (.optional .unsigned) fun r v ↦ { r with agency := v }]

def reader : Reader ListingRecord := .record { id := 0, title := "" } fields

end ListingRecord

namespace BookmarkRecord

def fields : List (Field BookmarkRecord) := [
  .of "profile" true .unsigned fun r v ↦ { r with profile := v },
  .of "listing" true .unsigned fun r v ↦ { r with listing := v }]

def reader : Reader BookmarkRecord := .record ⟨0, 0⟩ fields

end BookmarkRecord

namespace Snapshot

def fields : List (Field Snapshot) := [
  .of "profiles" false (.list ProfileRecord.reader) fun s v ↦ { s with profiles := v },
  .of "agencies" false (.list AgencyRecord.reader) fun s v ↦ { s with agencies := v },
  .of "categories" false (.list CategoryRecord.reader) fun s v ↦ { s with categories := v },
  .of "listings" false (.list ListingRecord.reader) fun s v ↦ { s with listings := v },
  .of "bookmarks" false (.list BookmarkRecord.reader) fun s v ↦ { s with bookmarks := v }]

def reader : Reader Snapshot := .record {} fields

/-- Reads a document that holds a snapshot. -/
def ofDocument (document : List Symbol) : Except GraphError Snapshot :=
  match reader.document document with
  | .ok snapshot => .ok snapshot
  | .error fault => .error (.document fault)

end Snapshot

/-! ## Writing -/

private def jsonNumber (n : UInt64) : Json := .integer n.toNat

private def jsonNumbers (ns : List UInt64) : Json := .array (ns.map jsonNumber)

/-- A value that may be missing as JSON. -/
private def jsonOption {α : Type} (toJson : α → Json) : Option α → Json
  | none => .null
  | some x => toJson x

def ProfileRecord.toJson (r : ProfileRecord) : Json := .object [
  ("id", jsonNumber r.id),
  ("username", .string r.username),
  ("role", jsonOption .string r.role),
  ("organizations", jsonNumbers r.organizations),
  ("stewarded_organizations", jsonNumbers r.stewardedOrganizations)]

def AgencyRecord.toJson (r : AgencyRecord) : Json := .object [
  ("id", jsonNumber r.id),
  ("title", .string r.title),
  ("short_name", .string r.shortName)]

def CategoryRecord.toJson (r : CategoryRecord) : Json := .object [
  ("id", jsonNumber r.id),
  ("title", .string r.title)]

def ListingRecord.toJson (r : ListingRecord) : Json := .object [
  ("id", jsonNumber r.id),
  ("title", .string r.title),
  ("description", jsonOption .string r.description),
  ("is_enabled", .bool r.isEnabled),
  ("is_deleted", .bool r.isDeleted),
  ("is_featured", .bool r.isFeatured),
  ("is_private", .bool r.isPrivate),
  ("approval_status", .string r.approvalStatus),
  ("categories", jsonNumbers r.categories),
  ("agency", jsonOption jsonNumber r.agency)]

def BookmarkRecord.toJson (r : BookmarkRecord) : Json := .object [
  ("profile", jsonNumber r.profile),
  ("listing", jsonNumber r.listing)]

def Snapshot.toJson (s : Snapshot) : Json := .object [
  ("profiles", .array (s.profiles.map ProfileRecord.toJson)),
  ("agencies", .array (s.agencies.map AgencyRecord.toJson)),
  ("categories", .array (s.categories.map CategoryRecord.toJson)),
  ("listings", .array (s.listings.map ListingRecord.toJson)),
  ("bookmarks", .array (s.bookmarks.map BookmarkRecord.toJson))]

end BookmarkGraph
