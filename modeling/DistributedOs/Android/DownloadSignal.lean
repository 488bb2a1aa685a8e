import DistributedOs.Discovery.Registry
import DistributedOs.Semantics.Codec
import DistributedOs.Semantics.JavaUri
import DistributedOs.Semantics.JsonObject

/-! The signal that offers a file of the dashboard to the device. The dashboard formats it as a
text, the device reads it as JSON and the address in it as a URI. -/

namespace DistributedOs.Android.DownloadSignal

open Semantics Semantics.Java Semantics.Java.Json Discovery

/-- What `handle_stream_upload` has when it signals the device; there is a key unless the identity
fails to load. -/
structure Upload where
  filename : String
  fileSize : Nat
  lanIp : Ipv4Addr
  port : UInt16
  publicKey : Option (List UInt8)
  /-- The size is that of a stored file. -/
  stored : fileSize < 2 ^ 63

namespace Upload

def fingerprint (upload : Upload) : String :=
  match upload.publicKey with
  | some key => String.ofList (key.flatMap lowerHex)
  | none => ""

def downloadUrl (upload : Upload) : String :=
  "https://" ++ withPort upload.lanIp upload.port ++ "/" ++ upload.filename

def signal (upload : Upload) : String :=
  "PDOS_DOWNLOAD::\x7b\"url\":\"" ++ upload.downloadUrl ++ "\",\"filename\":\"" ++
  upload.filename ++ "\",\"size\":" ++
    toString upload.fileSize ++ ",\"fingerprint\":\"" ++ upload.fingerprint ++ "\"\x7d"

end Upload

def downloadSignalPrefix : Text := text "PDOS_DOWNLOAD::"

/-- The arguments of `showAcceptDeclineNotification`. -/
structure Incoming where
  url : Text
  filename : Text
  size : Int
  fingerprint : Text

section
variable {D : Type} (platform : Platform D) (otherAuthority : Text → Option Uri.Authority)

/-- The offer in the body of a notification, none if the body is another one or is refused. -/
def showNotification (body : Text) : Option Incoming :=
  if downloadSignalPrefix.isPrefixOf body then do
    let obj ← parseObject platform (body.drop downloadSignalPrefix.length)
    let url ← getString platform obj "url"
    let filename ← getString platform obj "filename"
    let size := optLong platform obj "size" 0
    let fingerprint := optString platform obj "fingerprint" []
    some { url, filename, size, fingerprint }
  else none

namespace Upload

/-- The device has the offer as it was made. -/
def Arrives (upload : Upload) : Prop :=
  showNotification platform (text upload.signal) =
    some { url := text upload.downloadUrl, filename := text upload.filename, size := upload.fileSize
           fingerprint := text upload.fingerprint }

/-- The address is that of the server that serves the file. -/
def Addresses (upload : Upload) : Prop :=
  Uri.parse otherAuthority (text upload.downloadUrl) =
    some { host := some (text upload.lanIp.toText), port := some upload.port.toNat }

end Upload

end

/-- The name can stand behind the slash as it is. -/
def urlName (filename : String) : Bool := Uri.legal .path filename.toList

variable {D : Type} {platform : Platform D} {otherAuthority : Text → Option Uri.Authority}
  {upload : Upload}

def Ipv4Addr.numbers (ip : Ipv4Addr) : List Nat := [ip.a.toNat, ip.b.toNat, ip.c.toNat, ip.d.toNat]

theorem text_toText (ip : Ipv4Addr) : text ip.toText = Uri.dotted (Ipv4Addr.numbers ip) := by
  have dot : text "." = [unit '.'] := by decide
  simp only [Ipv4Addr.toText, text_append, text_toString, dot, Ipv4Addr.numbers, Uri.dotted,
    List.append_assoc, List.cons_append, List.nil_append]

theorem text_withPort (ip : Ipv4Addr) (port : UInt16) :
    text (withPort ip port) = Uri.dotted (Ipv4Addr.numbers ip) ++
      unit ':' :: decimal port.toNat := by
  have colon : text ":" = [unit ':'] := by decide
  simp only [withPort, text_append, text_toString, colon, text_toText, List.append_assoc,
    List.singleton_append]

theorem text_downloadUrl (upload : Upload) :
    text upload.downloadUrl =
      text "https://" ++
      (text (withPort upload.lanIp upload.port) ++ unit '/' :: encode upload.filename.toList) := by
  have slash : text "/" = [unit '/'] := by decide
  simp only [Upload.downloadUrl, text_append, slash, List.append_assoc, List.singleton_append]
  rfl

theorem numbers_le (ip : Ipv4Addr) : ∀ n ∈ Ipv4Addr.numbers ip, n ≤ 255 := by
  have byte (b : UInt8) : b.toNat ≤ 255 := Nat.le_of_lt_succ b.toNat_lt
  simp only [Ipv4Addr.numbers, List.forall_mem_cons]
  exact ⟨byte ip.a, byte ip.b, byte ip.c, byte ip.d, nofun⟩

theorem parse_downloadUrl (upload : Upload) :
    Uri.parse otherAuthority (text upload.downloadUrl) =
      if urlName upload.filename then
        some { host := some (text upload.lanIp.toText), port := some upload.port.toNat }
      else none := by
  have filled : text (withPort upload.lanIp upload.port) ≠ [] := by
    rw [text_withPort]
    simp
  have all : ∀ u ∈ text (withPort upload.lanIp upload.port), Uri.isAuthorityUnit u = true := by
    intro u member
    rw [text_withPort] at member
    exact Uri.isAuthorityUnit_address member
  have small := upload.port.toNat_lt
  rw [text_downloadUrl, Uri.parse_https filled all, Uri.parse_encode, text_withPort, text_toText,
    Uri.parseAuthority_dotted rfl (numbers_le upload.lanIp) (Nat.lt_trans small (by decide))]
  rfl

theorem addresses_iff : upload.Addresses otherAuthority ↔ urlName upload.filename = true := by
  rw [Upload.Addresses, parse_downloadUrl]
  cases urlName upload.filename <;> simp

/-- The members of the signal, in their order. -/
def Upload.later (upload : Upload) : List (Text × Flat) :=
  [(text "filename", .string (text upload.filename)), (text "size", .number upload.fileSize),
   (text "fingerprint", .string (text upload.fingerprint))]

theorem text_signal (upload : Upload) :
    text upload.signal =
      downloadSignalPrefix ++ unit '{' :: membersText (text "url")
        (.string (text upload.downloadUrl)) upload.later := by
  have url : text "PDOS_DOWNLOAD::\x7b\"url\":\"" = downloadSignalPrefix ++
  unit '{' :: (quoted (text "url") ++ [unit ':', quote]) := by
    decide +kernel
  have filename :
  text "\",\"filename\":\"" =
  quote :: unit ',' :: (quoted (text "filename") ++ [unit ':', quote]) := by decide +kernel
  have size : text "\",\"size\":" =
  quote :: unit ',' :: (quoted (text "size") ++ [unit ':']) := by decide +kernel
  have fingerprint :
  text ",\"fingerprint\":\"" =
  unit ',' :: (quoted (text "fingerprint") ++ [unit ':', quote]) := by decide +kernel
  have closing : text "\"\x7d" = [quote, unit '}'] := by decide +kernel
  unfold Upload.signal
  simp only [text_append, url, filename, size, fingerprint, closing, text_toString]
  simp [membersText, Upload.later, Flat.text, quoted]

theorem isClean_of_not_mem (noQuote : '\x22' ∉ string.toList)
    (noBackslash : '\x5c' ∉ string.toList) :
    isClean (text string) := by
  intro u member
  constructor
  · rintro rfl
    exact noQuote ((unit_mem_encode (by decide)).mp member)
  · rintro rfl
    exact noBackslash ((unit_mem_encode (by decide)).mp member)

theorem isClean_append (clean : isClean first) (too : isClean second) :
    isClean (first ++ second) := by
  intro u member
  rcases List.mem_append.mp member with member | member
  · exact clean u member
  · exact too u member

theorem isClean_filename (named : urlName upload.filename = true) :
    isClean (text upload.filename) := by
  have refused (c : Char) (mark : c = '\x22' ∨ c = '\x5c') : c ∉ upload.filename.toList := by
    refine Uri.not_mem_of_legal ?_ ?_ named
    · intro part
      rcases mark with rfl | rfl <;> cases part <;> decide
    · rcases mark with rfl | rfl <;> decide
  exact isClean_of_not_mem (refused _ (.inl rfl)) (refused _ (.inr rfl))

theorem isClean_downloadUrl (named : urlName upload.filename = true) :
    isClean (text upload.downloadUrl) := by
  rw [text_downloadUrl, text_withPort]
  refine isClean_append (isClean_of_not_mem (by decide) (by decide)) (isClean_append ?_ ?_)
  · intro u member
    have outside (v : UInt16) (other : Uri.isDigit v = false ∧ v ≠ unit '.' ∧ v ≠ unit ':') : u ≠ v := by
      rintro rfl
      rcases Uri.mem_address member with digit | dot | colon
      · rw [other.1] at digit
        cases digit
      · exact other.2.1 dot
      · exact other.2.2 colon
    exact ⟨outside _ (by decide), outside _ (by decide)⟩
  · have slash : isClean (text "/") := isClean_of_not_mem (by decide) (by decide)
    exact isClean_append slash (isClean_filename named)

theorem isClean_fingerprint (upload : Upload) : isClean (text upload.fingerprint) := by
  unfold Upload.fingerprint
  split
  · rename_i key _
    have digits : ∀ digit < 16, Nat.digitChar digit ≠ '\x22' ∧ Nat.digitChar digit ≠ '\x5c' := by decide
    have outside (c : Char) (mark : c = '\x22' ∨ c = '\x5c') :
        c ∉ (String.ofList (key.flatMap lowerHex)).toList := by
      rw [String.toList_ofList]
      intro member
      obtain ⟨byte, _, digit⟩ := List.mem_flatMap.mp member
      have small := byte.toNat_lt
      have high := digits (byte.toNat / 16) (by omega)
      have low := digits (byte.toNat % 16) (by omega)
      simp only [lowerHex, List.mem_cons, List.not_mem_nil, or_false] at digit
      rcases digit with rfl | rfl
      · rcases mark with quote | backslash
        · exact high.1 quote
        · exact high.2 backslash
      · rcases mark with quote | backslash
        · exact low.1 quote
        · exact low.2 backslash
    exact isClean_of_not_mem (outside _ (.inl rfl)) (outside _ (.inr rfl))
  · exact isClean_of_not_mem (by decide) (by decide)

/-- A name that can stand in the address needs no escapes in the signal. -/
theorem arrives_of_urlName (named : urlName upload.filename = true) : upload.Arrives platform := by
  have readable : ∀ member ∈ (text "url", .string (text upload.downloadUrl)) :: upload.later,
      isClean member.1 ∧ member.2.Readable := by
    simp only [Upload.later, List.forall_mem_cons]
    have clean (name : String) (noQuote : '\x22' ∉ name.toList)
        (noBackslash : '\x5c' ∉ name.toList) : isClean (text name) :=
      isClean_of_not_mem noQuote noBackslash
    exact ⟨⟨clean _ (by decide) (by decide), isClean_downloadUrl named⟩,
      ⟨clean _ (by decide) (by decide), isClean_filename named⟩,
      ⟨clean _ (by decide) (by decide), upload.stored⟩,
      ⟨clean _ (by decide) (by decide), isClean_fingerprint upload⟩, nofun⟩
  have distinct : [text "url", text "filename", text "size", text "fingerprint"].Nodup := by
    decide +kernel
  have read : parseObject platform _ = _ := parseObject_membersText readable distinct
  have begins : downloadSignalPrefix.isPrefixOf (text upload.signal) = true := by
    rw [text_signal, List.isPrefixOf_iff_prefix]
    exact List.prefix_append _ _
  have behind : (text upload.signal).drop downloadSignalPrefix.length =
      unit '{' :: membersText (text "url") (.string (text upload.downloadUrl)) upload.later := by
    rw [text_signal, List.drop_left]
  rw [Upload.Arrives, showNotification, if_pos begins, behind, read]
  have first : ∀ name ∈ [text "filename", text "size", text "fingerprint"],
      (name == text "url") = false := by decide +kernel
  have second : ∀ name ∈ [text "size", text "fingerprint"], (name == text "filename") = false := by
    decide +kernel
  have third : (text "fingerprint" == text "size") = false := by decide +kernel
  simp only [List.forall_mem_cons] at first second
  simp [getString, optLong, optString, opt, Upload.later, List.lookup_cons, first, second, third,
    Flat.toValue, toText, toLong]

/-- The device has the offer, and its address is that of the server, exactly for a name that can
stand in the address. -/
theorem offered_iff (platform : Platform D) (otherAuthority : Text → Option Uri.Authority)
    (upload : Upload) :
    upload.Arrives platform ∧ upload.Addresses otherAuthority ↔ urlName upload.filename = true := by
  rw [addresses_iff]
  exact ⟨And.right, fun named => ⟨arrives_of_urlName named, named⟩⟩

/-- No text beyond ASCII and no double occurs in the sample. -/
def samplePlatform : Platform Empty where
  otherDigit _ _ := none
  otherCase _ _ := false
  valueOf _ := none
  isFinite := nofun
  longValue := nofun
  print _ := []

def sampleUpload : Upload where
  filename := "say \"hi\".txt"
  fileSize := 12
  lanIp := { a := 192, b := 168, c := 1, d := 5 }
  port := 50000
  publicKey := some [0xab, 0x01]
  stored := by decide

/-- A quotation mark in the name ends the address too early, and the offer vanishes. -/
theorem sampleUpload_vanishes :
    showNotification samplePlatform (text sampleUpload.signal) = none ∧
      ¬ sampleUpload.Arrives samplePlatform := by
  have vanishes : showNotification samplePlatform (text sampleUpload.signal) = none := by
    rw [← Option.isNone_iff_eq_none]
    decide +kernel
  refine ⟨vanishes, fun arrives => ?_⟩
  rw [Upload.Arrives, vanishes] at arrives
  cases arrives

end DistributedOs.Android.DownloadSignal
