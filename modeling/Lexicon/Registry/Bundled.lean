import Lexicon.Document.Basic
import Lexicon.Files.FilePath

/-!
# Bundled documents

The documents that come with the library: references to records, two calls on repositories, labels,
and annotations of text.
-/

namespace Lexicon.Bundled

/-- A reference to a record by its URI and a hash of its content. -/
def strongRef : Value :=
  .object [
    ("lexicon", .int 1),
    ("id", .str "com.atproto.repo.strongRef"),
    ("description", .str "A URI with a content-hash fingerprint."),
    ("defs", .object [
      ("main", .object [
        ("type", .str "object"),
        ("required", .list [.str "uri", .str "cid"]),
        ("properties", .object [
          ("uri", .object [("type", .str "string"), ("format", .str "at-uri")]),
          ("cid", .object [("type", .str "string"), ("format", .str "cid")])])])])]

/-- The call that fetches a record. -/
def getRecord : Value :=
  .object [
    ("lexicon", .int 1),
    ("id", .str "com.atproto.repo.getRecord"),
    ("defs", .object [
      ("main", .object [
        ("type", .str "query"),
        ("description", .str "Get a single record from a repository. Does not require auth."),
        ("parameters", .object [
          ("type", .str "params"),
          ("required", .list [.str "repo", .str "collection", .str "rkey"]),
          ("properties", .object [
            ("repo", .object [
              ("type", .str "string"),
              ("format", .str "at-identifier"),
              ("description", .str "The handle or DID of the repo.")]),
            ("collection", .object [
              ("type", .str "string"),
              ("format", .str "nsid"),
              ("description", .str "The NSID of the record collection.")]),
            ("rkey", .object [
              ("type", .str "string"),
              ("description", .str "The Record Key."),
              ("format", .str "record-key")]),
            ("cid", .object [
              ("type", .str "string"),
              ("format", .str "cid"),
              ("description", .str
                ("The CID of the version of the record. If not specified, then return the most" ++
                 " recent version."))])])]),
        ("output", .object [
          ("encoding", .str "application/json"),
          ("schema", .object [
            ("type", .str "object"),
            ("required", .list [.str "uri", .str "value"]),
            ("properties", .object [
              ("uri", .object [("type", .str "string"), ("format", .str "at-uri")]),
              ("cid", .object [("type", .str "string"), ("format", .str "cid")]),
              ("value", .object [("type", .str "unknown")])])])]),
        ("errors", .list [.object [("name", .str "RecordNotFound")]])])])]

/-- The call that takes up a blob. -/
def uploadBlob : Value :=
  .object [
    ("lexicon", .int 1),
    ("id", .str "com.atproto.repo.uploadBlob"),
    ("defs", .object [
      ("main", .object [
        ("type", .str "procedure"),
        ("description", .str "Upload a new blob, to be referenced from a repository record."),
        ("input", .object [("encoding", .str "*/*")]),
        ("output", .object [
          ("encoding", .str "application/json"),
          ("schema", .object [
            ("type", .str "object"),
            ("required", .list [.str "blob"]),
            ("properties", .object [("blob", .object [("type", .str "blob")])])])])])])]

/-- Labels of records and of their authors. -/
def labels : Value :=
  .object [
    ("lexicon", .int 1),
    ("id", .str "com.atproto.label.defs"),
    ("defs", .object [
      ("label", .object [
        ("type", .str "object"),
        ("description", .str "Metadata tag on an atproto resource (eg, repo or record)."),
        ("required", .list [.str "src", .str "uri", .str "val", .str "cts"]),
        ("properties", .object [
          ("ver", .object [
            ("type", .str "integer"),
            ("description", .str "The AT Protocol version of the label object.")]),
          ("src", .object [
            ("type", .str "string"),
            ("format", .str "did"),
            ("description", .str "DID of the actor who created this label.")]),
          ("uri", .object [
            ("type", .str "string"),
            ("format", .str "uri"),
            ("description", .str
              ("AT URI of the record, repository (account), or other resource that this label" ++
               " applies to."))]),
          ("cid", .object [
            ("type", .str "string"),
            ("format", .str "cid"),
            ("description", .str
              ("Optionally, CID specifying the specific version of 'uri' resource this label" ++
               " applies to."))]),
          ("val", .object [
            ("type", .str "string"),
            ("maxLength", .int 128),
            ("description", .str "The short string name of the value or type of this label.")]),
          ("neg", .object [
            ("type", .str "boolean"),
            ("description", .str
              ("If true, this is a negation label, overwriting a previous label."))]),
          ("cts", .object [
            ("type", .str "string"),
            ("format", .str "datetime"),
            ("description", .str "Timestamp when this label was created.")]),
          ("exp", .object [
            ("type", .str "string"),
            ("format", .str "datetime"),
            ("description", .str "Timestamp at which this label expires (no longer applies).")]),
          ("sig", .object [
            ("type", .str "bytes"),
            ("description", .str "Signature of dag-cbor encoded label.")])])]),
      ("selfLabels", .object [
        ("type", .str "object"),
        ("description", .str
          ("Metadata tags on an atproto record, published by the author within the record.")),
        ("required", .list [.str "values"]),
        ("properties", .object [
          ("values", .object [
            ("type", .str "array"),
            ("items", .object [("type", .str "ref"), ("ref", .str "#selfLabel")]),
            ("maxLength", .int 10)])])]),
      ("selfLabel", .object [
        ("type", .str "object"),
        ("description", .str
          ("Metadata tag on an atproto record, published by the author within the record. Note" ++
           " that schemas should use #selfLabels, not #selfLabel.")),
        ("required", .list [.str "val"]),
        ("properties", .object [
          ("val", .object [
            ("type", .str "string"),
            ("maxLength", .int 128),
            ("description", .str "The short string name of the value or type of this label.")])])]),
      ("labelValue", .object [
        ("type", .str "string"),
        ("knownValues", .list [
          .str "!hide", .str "!no-promote", .str "!warn", .str "!no-unauthenticated",
          .str "dmca-violation", .str "doxxing", .str "porn", .str "sexual", .str "nudity",
          .str "nsfl", .str "gore"])])])]

/-- Annotations of parts of a text. -/
def facet : Value :=
  .object [
    ("lexicon", .int 1),
    ("id", .str "app.bsky.richtext.facet"),
    ("defs", .object [
      ("main", .object [
        ("type", .str "object"),
        ("description", .str "Annotation of a sub-string within rich text."),
        ("required", .list [.str "index", .str "features"]),
        ("properties", .object [
          ("index", .object [("type", .str "ref"), ("ref", .str "#byteSlice")]),
          ("features", .object [
            ("type", .str "array"),
            ("items", .object [
              ("type", .str "union"),
              ("refs", .list [.str "#mention", .str "#link", .str "#tag"])])])])]),
      ("mention", .object [
        ("type", .str "object"),
        ("description", .str
          ("Facet feature for mention of another account. The text is usually a handle," ++
           " including a '@' prefix, but the facet reference is a DID.")),
        ("required", .list [.str "did"]),
        ("properties", .object [
          ("did", .object [("type", .str "string"), ("format", .str "did")])])]),
      ("link", .object [
        ("type", .str "object"),
        ("description", .str
          ("Facet feature for a URL. The text URL may have been simplified or truncated, but the" ++
           " facet reference should be a complete URL.")),
        ("required", .list [.str "uri"]),
        ("properties", .object [
          ("uri", .object [("type", .str "string"), ("format", .str "uri")])])]),
      ("tag", .object [
        ("type", .str "object"),
        ("description", .str
          ("Facet feature for a hashtag. The text usually includes a '#' prefix, but the facet" ++
           " reference should not (except in the case of 'double hash tags').")),
        ("required", .list [.str "tag"]),
        ("properties", .object [
          ("tag", .object [
            ("type", .str "string"),
            ("maxLength", .int 640),
            ("maxGraphemes", .int 64)])])]),
      ("byteSlice", .object [
        ("type", .str "object"),
        ("description", .str
          ("Specifies the sub-string range a facet feature applies to. Start index is inclusive," ++
           " end index is exclusive. Indices are zero-indexed, counting bytes of the UTF-8" ++
           " encoded text.")),
        ("required", .list [.str "byteStart", .str "byteEnd"]),
        ("properties", .object [
          ("byteStart", .object [("type", .str "integer"), ("minimum", .int 0)]),
          ("byteEnd", .object [("type", .str "integer"), ("minimum", .int 0)])])])])]

/-- The bundled documents by their identifiers. -/
def all : Entries Value :=
  [("com.atproto.repo.strongRef", strongRef),
    ("com.atproto.repo.getRecord", getRecord),
    ("com.atproto.repo.uploadBlob", uploadBlob),
    ("com.atproto.label.defs", labels),
    ("app.bsky.richtext.facet", facet)]

/-- The definitions of a document as it is written. -/
def definitions : Value → Entries Value
  | .object es =>
    match Entries.getValue es "defs" with
    | Value.object definitions => definitions
    | _ => []
  | _ => []

/-- The file of a bundled document. -/
def fileOf (id : String) : FilePath :=
  let parts := (Text.splitOn '.' id.toList).map String.ofList
  FilePath.joinAll ⟨"", []⟩ (parts.dropLast ++ [parts.getLastD "" ++ ".json"])

/-- The bundled document that lies in the file of an identifier. -/
def load (id : String) : Except Fault Value :=
  match List.find? (fun e => fileOf e.1 == fileOf id) all with
  | some e => .ok e.2
  | none => .error (.notBundled id)

end Lexicon.Bundled
