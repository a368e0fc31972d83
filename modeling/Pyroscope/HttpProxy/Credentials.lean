import Mathlib.Algebra.Ring.Int.Defs
import Mathlib.Data.List.Basic

/-!
# Proxy credentials

`ParseProxy` cuts user name and password out of the URL around the last at sign and the first colon.
-/

namespace Pyroscope.HttpProxy

open List

abbrev Text := List UInt8

def ascii (text : String) : Text := text.toList.map Char.toUInt8

def digitValue (byte : UInt8) : Nat :=
  if 0x30 ≤ byte ∧ byte ≤ 0x39 then byte.toNat - 0x30
  else if 0x41 ≤ byte ∧ byte ≤ 0x5A then byte.toNat - 0x41 + 10
  else if 0x61 ≤ byte ∧ byte ≤ 0x7A then byte.toNat - 0x61 + 10
  else 36

/-- `std::stoi`, which throws if there is no digit or if the number does not fit. -/
def stoi (base : Nat) (text : Text) : Option Int :=
  let text := text.dropWhile fun byte => byte == 0x20 || (0x09 ≤ byte && byte ≤ 0x0D)
  let signed := text.head? == some '-'.toUInt8 || text.head? == some '+'.toUInt8
  let digits := (if signed then text.tail else text).takeWhile (digitValue · < base)
  let magnitude : Int := digits.foldl (fun value digit => value * base + digitValue digit) 0
  let value := if text.head? == some '-'.toUInt8 then -magnitude else magnitude
  if digits.isEmpty ∨ value < -2 ^ 31 ∨ 2 ^ 31 ≤ value then none else some value

def percentDecode : Text → Option Text
  | byte :: high :: low :: rest =>
    if byte = '%'.toUInt8 then do
      let value ← stoi 16 [high, low]
      return UInt8.ofInt value :: (← percentDecode rest)
    else do return byte :: (← percentDecode (high :: low :: rest))
  | short => some short

def behindScheme : Text → Option Text
  | [] => none
  | byte :: rest =>
    if ascii "://" <+: byte :: rest then some (rest.drop 2) else behindScheme rest

def cutFirst (separator : UInt8) (text : Text) : Option (Text × Text) :=
  if separator ∈ text then
    some (text.takeWhile (· != separator), (text.dropWhile (· != separator)).tail)
  else none

def cutLast (separator : UInt8) (text : Text) : Option (Text × Text) :=
  (cutFirst separator text.reverse).map fun (after, before) => (before.reverse, after.reverse)

structure Url where
  scheme : Text
  host : Text
  port : Text

structure ProxyConfig where
  host : Text
  port : Int
  user : Text
  password : Text
  deriving DecidableEq

/-- The configuration, if it is valid. `Url` is the parser of URLs, which may throw. -/
def parseProxy (parseUrl : Text → Option Url) (value : Text) : Option ProxyConfig := do
  let raw := if behindScheme value = none then ascii "http://" ++ value else value
  let url ← parseUrl raw
  if url.scheme ≠ ascii "http" ∨ url.host = [] then none
  let port ← if url.port = [] then some 80 else stoi 10 url.port
  if port = 0 then none
  let authority := ((behindScheme raw).getD []).takeWhile (· ∉ ascii "/?#")
  match cutLast '@'.toUInt8 authority with
  | none => return ⟨url.host, port, [], []⟩
  | some (userInfo, _) =>
    let (user, password) := (cutFirst ':'.toUInt8 userInfo).getD (userInfo, [])
    let user ← percentDecode user
    let password ← percentDecode password
    if user = [] ∨ password = [] then none
    return ⟨url.host, port, user, password⟩

def isUnreserved (byte : UInt8) : Bool := digitValue byte < 36 || byte ∈ ascii "-._~"

/-- Percent encodings of a byte string, in which unreserved characters may be left alone. -/
inductive Encodes : Text → Text → Prop
  | nil : Encodes [] []
  | plain {byte : UInt8} {bytes text : Text} (unreserved : isUnreserved byte)
      (rest : Encodes bytes text) : Encodes (byte :: bytes) (byte :: text)
  | encoded {byte high low : UInt8} {bytes text : Text} (isHigh : digitValue high = byte.toNat / 16)
      (isLow : digitValue low = byte.toNat % 16) (rest : Encodes bytes text) :
      Encodes (byte :: bytes) ('%'.toUInt8 :: high :: low :: text)

variable {byte : UInt8} {separator : UInt8}

theorem notMem_of_digit (digit : digitValue byte < 36) :
    byte ∉ ascii "+-%:@/?#" := by
  have others : (ascii "+-%:@/?#").all (digitValue · == 36) = true := by decide
  intro mem
  rw [beq_iff_eq.mp (all_eq_true.mp others byte mem)] at digit
  exact Nat.lt_irrefl _ digit

theorem stoi_digits {high low : UInt8} (isHigh : digitValue high < 16)
    (isLow : digitValue low < 16) :
    stoi 16 [high, low] = some ((digitValue high * 16 + digitValue low : Nat) : Int) := by
  have notBlank : (high == 0x20 || (0x09 ≤ high && high ≤ 0x0D)) = false := by
    grind [digitValue]
  have unsigned : high ∉ ascii "+-%:@/?#" := notMem_of_digit (by omega)
  have notMinus : high ≠ '-'.toUInt8 := by
    rintro rfl
    exact unsigned (by decide)
  have notPlus : high ≠ '+'.toUInt8 := by
    rintro rfl
    exact unsigned (by decide)
  simp [stoi, notBlank, notMinus, notPlus, isHigh, isLow]
  omega

theorem percentDecode_cons (other : byte ≠ '%'.toUInt8) (rest : Text) :
    percentDecode (byte :: rest) = (percentDecode rest).map (byte :: ·) := by
  match rest with
  | [] => rfl
  | [_] => rfl
  | high :: low :: rest =>
    rw [percentDecode, if_neg other]
    cases percentDecode (high :: low :: rest) <;> rfl

theorem percentDecode_of_encodes {bytes text : Text} (encodes : Encodes bytes text) :
    percentDecode text = some bytes := by
  induction encodes with
  | nil => rfl
  | plain unreserved rest ih =>
    rw [percentDecode_cons, ih]
    · rfl
    · rintro rfl
      exact absurd unreserved (by decide)
  | @encoded byte high low bytes text isHigh isLow rest ih =>
    have isByte := byte.toNat_lt
    rw [percentDecode, if_pos rfl, stoi_digits (by omega) (by omega), ih, isHigh,
      isLow, Nat.div_add_mod']
    have same : UInt8.ofInt byte.toNat = byte := by
      rw [← UInt8.toNat_inj]
      simp [UInt8.ofInt]
      omega
    exact congrArg (fun first => some (first :: bytes)) same

theorem isUnreserved_of_lt (small : digitValue byte < 16) :
    isUnreserved byte = true := by
  rw [isUnreserved, decide_eq_true (by omega), Bool.true_or]

theorem Encodes.notMem {bytes text : Text} (encodes : Encodes bytes text)
    (reserved : isUnreserved separator = false) (other : separator ≠ '%'.toUInt8) :
    separator ∉ text := by
  induction encodes with
  | nil => exact not_mem_nil
  | plain unreserved rest ih =>
    rintro (_ | ⟨_, mem⟩)
    · cases reserved.symm.trans unreserved
    · exact ih mem
  | @encoded byte high low bytes text isHigh isLow rest ih =>
    have isByte := byte.toNat_lt
    rintro (_ | ⟨_, _ | ⟨_, _ | ⟨_, mem⟩⟩⟩)
    · exact other rfl
    · cases reserved.symm.trans (isUnreserved_of_lt (by omega))
    · cases reserved.symm.trans (isUnreserved_of_lt (by omega))
    · exact ih mem

theorem cutFirst_append {before : Text} (absent : separator ∉ before) (after : Text) :
    cutFirst separator (before ++ separator :: after) = some (before, after) := by
  have apart : ∀ byte ∈ before, (byte != separator) = true := by
    intro byte mem
    rw [bne_iff_ne]
    rintro rfl
    exact absent mem
  rw [cutFirst, if_pos (by simp), takeWhile_append_of_pos apart, dropWhile_append_of_pos apart]
  simp

theorem cutLast_append {after : Text} (absent : separator ∉ after) (before : Text) :
    cutLast separator (before ++ separator :: after) = some (before, after) := by
  rw [cutLast, reverse_append, reverse_cons, append_assoc, singleton_append,
    cutFirst_append (by simpa using absent)]
  simp

theorem behindScheme_append {before after : Text} (noSlash : '/'.toUInt8 ∉ before)
    (last : before.getLast? ≠ some ':'.toUInt8) (absent : behindScheme after = none) :
    behindScheme (before ++ after) = none := by
  induction before with
  | nil => exact absent
  | cons byte rest ih =>
    rw [mem_cons, not_or] at noSlash
    rw [cons_append, behindScheme, if_neg, ih noSlash.2]
    · cases rest with
      | nil => nofun
      | cons second rest => rwa [List.getLast?_cons_cons] at last
    · intro found
      cases rest with
      | nil => exact last (congrArg some (cons_prefix_cons.mp found).1.symm)
      | cons second rest =>
        rw [mem_cons, not_or] at noSlash
        have behind := (cons_prefix_cons.mp found).2
        exact noSlash.2.1 (cons_prefix_cons.mp behind).1

/-- The parts of a URL with credentials. The parser accepts it and gives back the port, and the host
in a form of its own, in lower case or without the brackets of an address. -/
structure Written (parseUrl : Text → Option Url) where
  user : Text
  password : Text
  userText : Text
  passwordText : Text
  host : Text
  parsedHost : Text
  port : Text
  number : Int
  suffix : Text
  encodesUser : Encodes user userText
  encodesPassword : Encodes password passwordText
  hasUser : user ≠ []
  hasPassword : password ≠ []
  isHost : parsedHost ≠ [] ∧ host.all (· ∉ ascii "@/?#") = true
  isPort : port ≠ [] ∧ port.all (digitValue · < 10) = true
  isNumber : stoi 10 port = some number ∧ number ≠ 0
  isSuffix : suffix.head?.all (· ∈ ascii "/?#") = true ∧ behindScheme suffix = none
  isParsed : parseUrl (ascii "http://" ++ (userText ++ ':'.toUInt8 :: passwordText ++
    '@'.toUInt8 :: (host ++ ':'.toUInt8 :: port) ++ suffix)) =
      some ⟨ascii "http", parsedHost, port⟩

namespace Written

variable {parseUrl : Text → Option Url} (written : Written parseUrl)

def hostAndPort : Text := written.host ++ ':'.toUInt8 :: written.port

def authority : Text :=
  written.userText ++ ':'.toUInt8 :: written.passwordText ++ '@'.toUInt8 :: written.hostAndPort

def text : Text := written.authority ++ written.suffix

theorem separator_facts (isSeparator : byte ∈ ascii "@/?#") :
    isUnreserved byte = false ∧ byte ≠ '%'.toUInt8 ∧ byte ≠ ':'.toUInt8 ∧ 10 ≤ digitValue byte := by
  have facts : (ascii "@/?#").all (fun byte => !isUnreserved byte && byte != '%'.toUInt8 &&
      byte != ':'.toUInt8 && 10 ≤ digitValue byte) = true := by decide
  simpa [and_assoc] using all_eq_true.mp facts byte isSeparator

theorem notMem_hostAndPort (isSeparator : byte ∈ ascii "@/?#") :
    byte ∉ written.hostAndPort := by
  rcases separator_facts isSeparator with ⟨_, _, notColon, notDigit⟩
  rw [hostAndPort, mem_append, mem_cons]
  rintro (inHost | isColon | inPort)
  · exact of_decide_eq_true (all_eq_true.mp written.isHost.2 byte inHost) isSeparator
  · exact notColon isColon
  · have digit := of_decide_eq_true (all_eq_true.mp written.isPort.2 byte inPort)
    omega

theorem notMem_authority (isDelimiter : byte ∈ ascii "/?#") :
    byte ∉ written.authority := by
  have isSeparator : byte ∈ ascii "@/?#" := mem_cons_of_mem _ isDelimiter
  rcases separator_facts isSeparator with ⟨reserved, notPercent, notColon, _⟩
  have notAt : byte ≠ '@'.toUInt8 := by
    rintro rfl
    revert isDelimiter
    decide
  rw [authority, mem_append, mem_append, mem_cons, mem_cons]
  rintro ((inUser | isColon | inPassword) | isAt | behind)
  · exact written.encodesUser.notMem reserved notPercent inUser
  · exact notColon isColon
  · exact written.encodesPassword.notMem reserved notPercent inPassword
  · exact notAt isAt
  · exact written.notMem_hostAndPort isSeparator behind

theorem behindScheme_text : behindScheme written.text = none := by
  refine behindScheme_append (written.notMem_authority (by decide)) ?_ written.isSuffix.2
  rcases eq_nil_or_concat written.port with none | ⟨rest, last, shape⟩
  · exact absurd none written.isPort.1
  · have digit := of_decide_eq_true (all_eq_true.mp written.isPort.2 last (by simp [shape]))
    have ending : written.authority = written.userText ++ ':'.toUInt8 :: written.passwordText ++
        '@'.toUInt8 :: written.host ++ ':'.toUInt8 :: rest ++ [last] := by
      simp [authority, hostAndPort, shape]
    rw [ending, List.getLast?_append_of_ne_nil _ (cons_ne_nil _ _)]
    rintro ⟨rfl⟩
    exact absurd digit (by decide)

theorem takeWhile_text : written.text.takeWhile (· ∉ ascii "/?#") = written.authority := by
  have within : ∀ byte ∈ written.authority, decide (byte ∉ ascii "/?#") = true := by
    intro byte mem
    rw [decide_eq_true_eq]
    exact fun isDelimiter => written.notMem_authority isDelimiter mem
  rw [text, takeWhile_append_of_pos within]
  cases shape : written.suffix with
  | nil => simp
  | cons byte rest =>
    have isDelimiter := written.isSuffix.1
    rw [shape] at isDelimiter
    rw [takeWhile_cons_of_neg (by simpa using isDelimiter), append_nil]

end Written

/-- Whether the scheme is written or not, the credentials are read as they were meant. -/
theorem credentials_read {parseUrl : Text → Option Url} (written : Written parseUrl) {value : Text}
    (isValue : value = written.text ∨ value = ascii "http://" ++ written.text) :
    parseProxy parseUrl value =
      some ⟨written.parsedHost, written.number, written.user, written.password⟩ := by
  have raw : (if behindScheme value = none then ascii "http://" ++ value else value) =
      ascii "http://" ++ written.text := by
    rcases isValue with rfl | rfl
    · rw [if_pos written.behindScheme_text]
    · rw [if_neg]
      nofun
  have authority : ((behindScheme (ascii "http://" ++ written.text)).getD []).takeWhile
      (· ∉ ascii "/?#") = written.authority := written.takeWhile_text
  have split : cutLast '@'.toUInt8 written.authority = some
      (written.userText ++ ':'.toUInt8 :: written.passwordText, written.hostAndPort) :=
    cutLast_append (written.notMem_hostAndPort (by decide)) _
  have userApart : cutFirst ':'.toUInt8
      (written.userText ++ ':'.toUInt8 :: written.passwordText) =
        some (written.userText, written.passwordText) :=
    cutFirst_append (written.encodesUser.notMem (by decide) (by decide)) _
  rw [parseProxy]
  simp only [raw, authority, split, userApart]
  rw [show parseUrl (ascii "http://" ++ written.text) = _ from written.isParsed]
  simp [written.isHost.1, written.isPort.1, written.isNumber, written.hasUser,
    written.hasPassword, percentDecode_of_encodes written.encodesUser,
    percentDecode_of_encodes written.encodesPassword]

def shortUrl : Written fun _ => some ⟨ascii "http", ascii "proxy", ascii "80"⟩ where
  user := ascii "a"
  password := ascii "@"
  userText := ascii "a"
  passwordText := ascii "%40"
  host := ascii "Proxy"
  parsedHost := ascii "proxy"
  port := ascii "80"
  number := 80
  suffix := ascii "/path"
  encodesUser := .plain (by decide) .nil
  encodesPassword := .encoded (by decide) (by decide) .nil
  hasUser := by decide
  hasPassword := by decide
  isHost := by decide
  isPort := by decide
  isNumber := by decide
  isSuffix := by decide
  isParsed := rfl

theorem short_credentials_read :
    parseProxy (fun _ => some ⟨ascii "http", ascii "proxy", ascii "80"⟩)
        (ascii "a:%40@Proxy:80/path") = some ⟨ascii "proxy", 80, ascii "a", ascii "@"⟩ :=
  credentials_read shortUrl (.inl (by decide))

end Pyroscope.HttpProxy
