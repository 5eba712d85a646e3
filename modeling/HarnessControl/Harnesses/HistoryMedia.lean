import HarnessControl.Library.JsonStrings

/-!
# Media of a native history

The known shapes of images, files and sounds in the records of the providers.  Other records are
left to the caller.
-/

namespace HarnessControl.Harnesses

open HarnessControl.Library HarnessControl.Library.JsonText

structure HistoryHost (ν : Type) where
  numbers : Doubles ν
  /-- `z.number().int()` -/
  isInteger : ν → Bool
  /-- `z.string().url()` -/
  isUrl : Units → Bool
  /-- `createHash("sha256").update(bytes).digest("hex")` -/
  digest : List UInt8 → Units
  length_digest : ∀ bytes, (digest bytes).length = 64

variable {ν : Type}

/-! ## Fields -/

abbrev NativeItem (ν : Type) := List (Units × Value ν)

def field (item : NativeItem ν) (key : String) : Option (Value ν) := item.lookup (Utf16.text key)

def fieldOf (key : String) : Option (Value ν) → Option (Value ν)
  | some (.object members) => field members key
  | _ => none

def isText (text : String) : Option (Value ν) → Bool
  | some (.string string) => string == Utf16.text text
  | _ => false

/-- `typeof input === "string" ? input : undefined` -/
def asText : Option (Value ν) → Option Units
  | some (.string string) => some string
  | _ => none

/-- `first ?? second` -/
def nullish (first second : Option (Value ν)) : Option (Value ν) :=
  match first with
  | none => second
  | some .null => second
  | some value => some value

/-- `value != null` -/
def present : Option (Value ν) → Bool
  | none => false
  | some .null => false
  | some _ => true

/-! ## Media -/

inductive MediaKind where
  | image
  | file
  | audio

def MediaKind.name : MediaKind → String
  | .image => "image"
  | .file => "file"
  | .audio => "audio"

inductive MediaSource (ν : Type) where
  | embedded (mimeType filename dataBase64 : Option (Value ν))
  | url (mimeType filename url : Option (Value ν))
  | path (path : Option (Value ν))
  | nativeReference (reference : Option (Value ν))

def isAscii (test : Char → Bool) (unit : UInt16) : Bool :=
  decide (unit.toNat < 0x80) && test (Char.ofNat unit.toNat)

def isAlphanumeric (c : Char) : Bool := c.isAlpha || c.isDigit

def isMimeUnit : UInt16 → Bool :=
  isAscii fun c => isAlphanumeric c || "!#$&^_.+-".toList.contains c

def slash : UInt16 := 0x2F

/-- `mime`, two parts about one slash. -/
def isMime (text : Units) : Bool :=
  decide (text.length ≤ 255) &&
    !(text.takeWhile (· != slash)).isEmpty && (text.takeWhile (· != slash)).all isMimeUnit &&
    decide (1 < (text.dropWhile (· != slash)).length) &&
    ((text.dropWhile (· != slash)).drop 1).all isMimeUnit

def textWithin (least greatest : Nat) (text : Units) : Bool :=
  decide (least ≤ text.length) && decide (text.length ≤ greatest)

/-- A field that is a string of the kind. -/
def requiredText (test : Units → Bool) : Option (Value ν) → Bool
  | some (.string text) => test text
  | _ => false

def optionalText (test : Units → Bool) : Option (Value ν) → Bool
  | none => true
  | some (.string text) => test text
  | some _ => false

def inputFileMaxBytes : Nat := 50 * 1024 * 1024

def isBase64Unit : UInt16 → Bool :=
  isAscii fun c => isAlphanumeric c || c == '+' || c == '/'

def equalsSign : UInt16 := 0x3D

def isMediaBase64 (text : Units) : Bool :=
  let padding := (text.reverse.takeWhile (· == equalsSign)).length
  let digits := text.reverse.drop padding
  let last (letters : String) :=
    (digits.head?).any (isAscii fun c => letters.toList.contains c)
  digits.all isBase64Unit && decide (padding ≤ 2) &&
    decide (text.length ≤ 4 * ((inputFileMaxBytes + 2) / 3)) &&
    decide (text.length % 4 = 0) && decide (0 < text.length) &&
    decide (text.length / 4 * 3 - padding ≤ inputFileMaxBytes) &&
    (padding != 2 || last "AQgw") && (padding != 1 || last "AEIMQUYcgkosw048")

def lowerUnit (unit : UInt16) : UInt16 :=
  if 0x41 ≤ unit.toNat ∧ unit.toNat ≤ 0x5A then unit + 0x20 else unit

def startsWith (text : Units) (start : String) : Bool := (Utf16.text start).isPrefixOf text

/-- `/^https?:\/\//i` -/
def isHttp (text : Units) : Bool :=
  startsWith (text.map lowerUnit) "http://" || startsWith (text.map lowerUnit) "https://"

/-- `harnessHistoryMediaSourceSchema` -/
def mediaSourceSchema (host : HistoryHost ν) : MediaSource ν → Bool
  | .embedded mimeType filename dataBase64 =>
    requiredText isMime mimeType && optionalText (textWithin 1 255) filename &&
      requiredText isMediaBase64 dataBase64
  | .url mimeType filename url =>
    optionalText isMime mimeType && optionalText (textWithin 1 255) filename &&
      requiredText (fun text => textWithin 1 8192 text && host.isUrl text && isHttp text) url
  | .path path => requiredText (fun text => textWithin 1 4096 text && text.all (· != 0)) path
  | .nativeReference reference => requiredText (textWithin 1 512) reference

def members (fields : List (String × Option (Value ν))) : List (Units × Value ν) :=
  fields.filterMap fun entry => entry.2.map fun value => (Utf16.text entry.1, value)

def literal (text : String) : Option (Value ν) := some (.string (Utf16.text text))

def MediaSource.value : MediaSource ν → Value ν
  | .embedded mimeType filename dataBase64 =>
    .object (members [("kind", literal "embedded"), ("mime_type", mimeType),
      ("filename", filename), ("data_base64", dataBase64)])
  | .url mimeType filename address =>
    .object (members [("kind", literal "url"), ("mime_type", mimeType), ("filename", filename),
      ("url", address)])
  | .path name => .object (members [("kind", literal "path"), ("path", name)])
  | .nativeReference reference =>
    .object (members [("kind", literal "native_reference"), ("reference", reference)])

/-- The media type of the head of a data URL in base64. -/
def dataHeader (head : Units) : Option Units :=
  let rest := head.drop 5
  let ending := Utf16.text ";base64"
  let mimeType := rest.take (rest.length - ending.length)
  if ending.isSuffixOf rest && !mimeType.isEmpty &&
      mimeType.all (fun unit => unit != 0x3B && unit != 0x2C) then
    some mimeType
  else none

/-- The source of a URL, with the metadata that its record has. -/
def urlSource (input mimeType filename : Option (Value ν)) : Option (MediaSource ν) :=
  match input with
  | some (.string url) =>
    if startsWith url "data:" then
      let head := url.takeWhile (· != 0x2C)
      if head.length = url.length then none
      else
        match dataHeader head with
        | none => none
        | some header =>
          match mimeType with
          | some (.string text) =>
            if text == header then
              some (.embedded (some (.string header)) filename
                (some (.string (url.drop (head.length + 1)))))
            else none
          | some _ => none
          | none =>
            some (.embedded (some (.string header)) filename
              (some (.string (url.drop (head.length + 1)))))
    else some (.url mimeType filename input)
  | _ => none

def codexMedia (block : NativeItem ν) : Option (MediaKind × Option (MediaSource ν)) :=
  let type := field block "type"
  if isText "image" type then
    some (.image,
      match field block "url", field block "fileId" with
      | none, some (.string fileId) => some (.nativeReference (some (.string fileId)))
      | url, _ => urlSource url none none)
  else if isText "audio" type then some (.audio, urlSource (field block "url") none none)
  else if isText "localImage" type then some (.image, some (.path (field block "path")))
  else if isText "localAudio" type then some (.audio, some (.path (field block "path")))
  else none

def claudeMedia (block : NativeItem ν) : Option (MediaKind × Option (MediaSource ν)) :=
  let source :=
    match field block "source" with
    | some (.object native) =>
      if isText "base64" (field native "type") then
        some (.embedded (field native "media_type") none (field native "data"))
      else if isText "url" (field native "type") then urlSource (field native "url") none none
      else none
    | _ => none
  if isText "image" (field block "type") then some (.image, source)
  else if isText "document" (field block "type") then some (.file, source)
  else none

def opencodeMedia (block : NativeItem ν) : Option (MediaKind × Option (MediaSource ν)) :=
  if isText "file" (field block "type") then
    let mime := field block "mime"
    let starts (start : String) := (asText mime).any fun text => startsWith text start
    let kind :=
      if starts "image/" then MediaKind.image else if starts "audio/" then .audio else .file
    some (kind, urlSource (field block "url") mime (field block "filename"))
  else none

def nativeHistoryMedia (host : HistoryHost ν) (input : Option (Value ν)) (itemNamespace : Units) :
    Option (MediaKind × MediaSource ν) :=
  match input with
  | some (.object block) =>
    let media :=
      if itemNamespace == Utf16.text "codex" then codexMedia block
      else if itemNamespace == Utf16.text "claude" then claudeMedia block
      else if itemNamespace == Utf16.text "opencode" then opencodeMedia block
      else none
    match media with
    | some (kind, some source) =>
      if mediaSourceSchema host source then some (kind, source) else none
    | _ => none
  | _ => none

end HarnessControl.Harnesses
