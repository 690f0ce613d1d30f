import Motohs.Imgtool.PrivateKey
import Motohs.Lib.Hex
import Motohs.Lib.Text

/-! The commands `getpub` and `getpriv`, which print keys as arrays of C or Rust, and what
is read back from what they print. -/

namespace Motohs.Imgtool

open Lib

def autogenMessage : List Char := "/* Autogenerated by imgtool.py, do not edit. */".toList

/-- The loop over the bytes, eight of them on a line. -/
def emitBytes (indent : List Char) : Nat → Bytes → List Char
  | _, [] => []
  | count, byte :: rest => (if count % 8 = 0 then '\n' :: indent else [' ']) ++
    (byteLiteral byte ++ emitBytes indent (count + 1) rest)

/-- The line with the length, in what stands in front of it and behind it. -/
def lengthText (encodedBytes : Bytes) (lenFormat : Option (List Char × List Char)) : List Char :=
  lenFormat.elim [] fun (before, after) => before ++ (decimal encodedBytes.length ++ (after ++ ['\n']))

/-- `_emit` -/
def emit (header trailer : List Char) (encodedBytes : Bytes) (indent : List Char)
    (lenFormat : Option (List Char × List Char)) : List Char :=
  autogenMessage ++ '\n' :: (header ++ (emitBytes indent 0 encodedBytes ++ '\n' :: (trailer ++ '\n' ::
    lengthText encodedBytes lenFormat)))

def shortname : KeyFamily → List Char
  | .rsa2048 | .rsa3072 => "rsa".toList
  | .ecdsa256P1 => "ecdsa".toList
  | .ed25519 => "ed25519".toList
  | .x25519 => "x25519".toList

def emitCPublic (crypto : Cryptography) (key : Key) : List Char :=
  emit ("const unsigned char ".toList ++ shortname key.family ++ "_pub_key[] = \x7b".toList) "\x7d;".toList
    (key.getPublicBytes crypto) "    ".toList
    (some ("const unsigned int ".toList ++ shortname key.family ++ "_pub_key_len = ".toList, ";".toList))

def emitRustPublic (crypto : Cryptography) (key : Key) : List Char :=
  emit ("static ".toList ++ (shortname key.family).map Char.toUpper ++ "_PUB_KEY: &'static [u8] = &[".toList)
    "];".toList (key.getPublicBytes crypto) "    ".toList none

/-- `emit_private`, once the bytes are there. -/
def emitPrivate (encodedBytes : Bytes) : List Char :=
  emit "const unsigned char enc_priv_key[] = \x7b".toList "\x7d;".toList encodedBytes "    ".toList
    (some ("const unsigned int enc_priv_key_len = ".toList, ";".toList))

/-- The choices of `--lang`. -/
inductive Lang where
  | c
  | rust
  deriving DecidableEq, Repr

def invalidPassphrase : List Char := "Invalid passphrase\n".toList

/-- What `getpub` prints, if the key can be loaded or not. -/
def getpub (crypto : Cryptography) (lang : Lang) : Option Key → List Char
  | none => invalidPassphrase
  | some key =>
    match lang with
    | .c => emitCPublic crypto key
    | .rust => emitRustPublic crypto key

/-- A key, by what its class gives away of its private half. -/
inductive KeyData where
  | publicOnly (family : KeyFamily)
  | rsa (key : RsaKey)
  | ecdsa (key : EcKey)
  | ed25519
  | x25519 (der : Bytes)

/-- `get_private_bytes` of the classes. -/
def getPrivateBytes (minimal : Bool) : KeyData → Except Raised Bytes
  | .publicOnly _ => .error (.keyUsageError "Operation get_private_bytes requires private key".toList)
  | .rsa key => if minimal then buildMinimalRsaPrivkey key.der else .ok key.der
  | .ecdsa key => if minimal then buildMinimalEcdsaPrivkey key.der else .ok key.der
  | .ed25519 => .error (.keyUsageError "Operation not supported with ed25519 keys".toList)
  | .x25519 der => .ok der

/-- What `getpriv` prints, and what it raises. Without a key it goes on after its message. -/
def getpriv (minimal : Bool) : Option KeyData → List Char × Option Raised
  | none => (invalidPassphrase, some .attributeError)
  | some key =>
    match getPrivateBytes minimal key with
    | .ok encodedBytes => (emitPrivate encodedBytes, none)
    | .error (.keyUsageError message) => ([], some (.usageError message))
    | .error raised => ([], some raised)

/-- The bytes of the first array in a text, and what follows it. -/
def readArray (opening closing text : List Char) : Option (Bytes × List Char) := do
  let start ← find opening text
  let (bytes, rest) ← readLiterals (text.drop (start + opening.length))
  if closing.isPrefixOf rest then some (bytes, rest.drop closing.length) else none

/-- The number that something is set to. -/
def readNumber (text : List Char) : Option Nat := do
  let start ← find "= ".toList text
  some (Nat.ofDigitChars 10 ((text.drop (start + "= ".toList.length)).takeWhile Char.isDigit) 0)

/-- An array of C and the length that is declared for it. -/
def readC (text : List Char) : Option (Bytes × Nat) := do
  let (bytes, rest) ← readArray "= \x7b".toList "\x7d;".toList text
  let length ← readNumber rest
  some (bytes, length)

def readRust (text : List Char) : Option Bytes :=
  (readArray "= &[".toList "];".toList text).map Prod.fst

section Read

theorem readLiterals_emitBytes {indent : List Char} (blank : ∀ char ∈ indent, isSpace char = true) (bytes : Bytes)
    (count : Nat) (rest : List Char) : readLiterals (emitBytes indent count bytes ++ rest) =
      (readLiterals rest).map fun (more, rest) => (bytes ++ more, rest) := by
  induction bytes generalizing count with
  | nil =>
    rw [emitBytes, List.nil_append]
    cases readLiterals rest <;> rfl
  | cons byte bytes ih =>
    have spacing : ∀ char ∈ if count % 8 = 0 then '\n' :: indent else [' '], isSpace char = true := by
      split
      · exact List.forall_mem_cons.mpr ⟨rfl, blank⟩
      · simp [isSpace]
    rw [emitBytes, List.append_assoc, List.append_assoc, readLiterals_blank spacing, readLiterals_byteLiteral, ih]
    cases readLiterals rest <;> rfl

/-- The bytes of an array are read up to the mark that ends it. -/
theorem readLiterals_array {indent : List Char} {mark : Char} (blank : ∀ char ∈ indent, isSpace char = true)
    (other : isSpace mark = false) (digit : mark ≠ '0') (bytes : Bytes) (rest : List Char) :
    readLiterals (emitBytes indent 0 bytes ++ '\n' :: mark :: rest) = some (bytes, mark :: rest) := by
  have newline : ∀ char ∈ ['\n'], isSpace char = true := by simp [isSpace]
  have line := readLiterals_blank newline (mark :: rest)
  rw [List.singleton_append] at line
  rw [readLiterals_emitBytes blank, line, readLiterals_end other digit]
  simp

theorem readArray_emit {name opening closing indent : List Char} {mark : Char} (plain : '=' ∉ name)
    (blank : ∀ char ∈ indent, isSpace char = true) (other : isSpace mark = false) (digit : mark ≠ '0') (bytes : Bytes)
    (lenFormat : Option (List Char × List Char)) :
    readArray ('=' :: opening) (mark :: closing)
        (emit (name ++ '=' :: opening) (mark :: closing) bytes indent lenFormat) =
      some (bytes, '\n' :: lengthText bytes lenFormat) := by
  have absent : '=' ∉ autogenMessage ++ '\n' :: name := by
    have message : '=' ∉ autogenMessage := by decide
    simp [message, plain]
  have whole : emit (name ++ '=' :: opening) (mark :: closing) bytes indent lenFormat =
      autogenMessage ++ '\n' :: name ++ ('=' :: opening ++
        (emitBytes indent 0 bytes ++ '\n' :: mark :: (closing ++ '\n' :: lengthText bytes lenFormat))) := by
    simp [emit]
  have literals := readLiterals_array blank other digit bytes (closing ++ '\n' :: lengthText bytes lenFormat)
  have closes : (mark :: closing).isPrefixOf (mark :: (closing ++ '\n' :: lengthText bytes lenFormat)) = true :=
    List.isPrefixOf_iff_prefix.mpr (List.prefix_append _ _)
  have after : (mark :: (closing ++ '\n' :: lengthText bytes lenFormat)).drop (mark :: closing).length =
      '\n' :: lengthText bytes lenFormat := List.drop_left
  rw [whole]
  simp only [readArray, find_head absent, drop_behind, literals, closes, after, bind, Option.bind, if_true]

/-- A number that is declared is read back. -/
theorem readNumber_lengthText {name : List Char} (plain : '=' ∉ name) (bytes : Bytes) :
    readNumber ('\n' :: lengthText bytes (some (name ++ "= ".toList, ";".toList))) = some bytes.length := by
  have absent : '=' ∉ '\n' :: name := by simp [plain]
  have start := find_head absent [' '] (decimal bytes.length ++ [';', '\n'])
  have behind := drop_behind ('\n' :: name) ('=' :: [' ']) (decimal bytes.length ++ [';', '\n'])
  have digits : (decimal bytes.length ++ [';', '\n']).takeWhile Char.isDigit = decimal bytes.length := by
    rw [List.takeWhile_append_of_pos fun _ member => isDigit_of_mem_decimal member]
    exact List.append_nil _
  have text : '\n' :: lengthText bytes (some (name ++ "= ".toList, ";".toList)) =
      '\n' :: name ++ ('=' :: [' '] ++ (decimal bytes.length ++ [';', '\n'])) := by
    simp [lengthText]
  have opening : "= ".toList = '=' :: [' '] := rfl
  rw [text]
  simp only [readNumber, opening, start, behind, digits, ofDigitChars_decimal, bind, Option.bind]

theorem readC_emit {name before indent : List Char} (plain : '=' ∉ name) (declared : '=' ∉ before)
    (blank : ∀ char ∈ indent, isSpace char = true) (bytes : Bytes) :
    readC (emit (name ++ "= \x7b".toList) "\x7d;".toList bytes indent (some (before ++ "= ".toList, ";".toList))) =
      some (bytes, bytes.length) := by
  have array : readArray "= \x7b".toList "\x7d;".toList
      (emit (name ++ "= \x7b".toList) "\x7d;".toList bytes indent (some (before ++ "= ".toList, ";".toList))) =
        some (bytes, '\n' :: lengthText bytes (some (before ++ "= ".toList, ";".toList))) :=
    @readArray_emit name _ _ indent '}' plain blank (by decide) (by decide) bytes _
  have number := readNumber_lengthText declared bytes
  simp only [readC, array, number, bind, Option.bind]

theorem blank_indent : ∀ char ∈ "    ".toList, isSpace char = true := by simp [isSpace]

theorem plain_shortname (family : KeyFamily) :
    '=' ∉ shortname family ∧ '=' ∉ (shortname family).map Char.toUpper := by
  cases family <;> decide

/-- Whatever `getpub` prints for a key, in either language, the array in it has the bytes of
the public key, and the length declared in C is theirs. -/
theorem getpub_reads (crypto : Cryptography) (key : Key) :
    readC (getpub crypto .c (some key)) =
        some (key.getPublicBytes crypto, (key.getPublicBytes crypto).length) ∧
      readRust (getpub crypto .rust (some key)) = some (key.getPublicBytes crypto) := by
  obtain ⟨lower, upper⟩ := plain_shortname key.family
  constructor
  · have name : '=' ∉ "const unsigned char ".toList ++ shortname key.family ++ "_pub_key[] ".toList := by
      simp [lower]
    have declared : '=' ∉ "const unsigned int ".toList ++ shortname key.family ++ "_pub_key_len ".toList := by
      simp [lower]
    have read := readC_emit name declared blank_indent (key.getPublicBytes crypto)
    simpa [getpub, emitCPublic] using read
  · have name : '=' ∉ "static ".toList ++ (shortname key.family).map Char.toUpper ++
        "_PUB_KEY: &'static [u8] ".toList := by
      simp [upper]
    have read := @readArray_emit _ " &[".toList ";".toList _ ']' name blank_indent (by decide) (by decide)
      (key.getPublicBytes crypto) none
    have header : "static ".toList ++ (shortname key.family).map Char.toUpper ++ "_PUB_KEY: &'static [u8] ".toList ++
        '=' :: " &[".toList = "static ".toList ++ (shortname key.family).map Char.toUpper ++
          "_PUB_KEY: &'static [u8] = &[".toList := by
      rw [List.append_assoc]
      rfl
    rw [header] at read
    exact congrArg (Option.map Prod.fst) read

theorem readC_emitPrivate (bytes : Bytes) : readC (emitPrivate bytes) = some (bytes, bytes.length) :=
  @readC_emit "const unsigned char enc_priv_key[] ".toList "const unsigned int enc_priv_key_len ".toList _
    (by decide) (by decide) blank_indent bytes

/-- What `getpriv --minimal` prints for an RSA key with the usual exponent is an array with the
version, N, E, D, P and Q of the key and nothing else, unless D has fewer than 2040 bits, or
one of the primes has fewer than 1016 or more than 2039: then it prints nothing. -/
theorem getpriv_rsa (key : RsaKey) (usual : key.publicExponent = 65537) :
    ∃ minimal, Der.Element.readNumbers minimal = some key.minimal ∧
      readC (emitPrivate minimal) = some (minimal, minimal.length) ∧
      getpriv true (some (.rsa key)) =
        if 2 ^ 2039 ≤ key.privateExponent then
          if 2 ^ 1015 ≤ key.prime1 ∧ key.prime1 < 2 ^ 2039 then
            if 2 ^ 1015 ≤ key.prime2 ∧ key.prime2 < 2 ^ 2039 then (emitPrivate minimal, none)
            else ([], some (.usageError "Error parsing Q while minimizing".toList))
          else ([], some (.usageError "Error parsing P while minimizing".toList))
        else ([], some (.usageError "Error parsing D while minimizing".toList)) := by
  obtain ⟨minimal, numbers, built⟩ := buildMinimalRsaPrivkey_key key usual
  refine ⟨minimal, numbers, readC_emitPrivate minimal, ?_⟩
  have parsingD : minimizingError 'D' = .keyUsageError "Error parsing D while minimizing".toList := rfl
  have parsingP : minimizingError 'P' = .keyUsageError "Error parsing P while minimizing".toList := rfl
  have parsingQ : minimizingError 'Q' = .keyUsageError "Error parsing Q while minimizing".toList := rfl
  simp only [getpriv, getPrivateBytes, if_true, built]
  by_cases exponent : 2 ^ 2039 ≤ key.privateExponent
  · by_cases first : 2 ^ 1015 ≤ key.prime1 ∧ key.prime1 < 2 ^ 2039
    · by_cases second : 2 ^ 1015 ≤ key.prime2 ∧ key.prime2 < 2 ^ 2039
      · simp only [if_pos exponent, if_pos first, if_pos second]
      · simp only [if_pos exponent, if_pos first, if_neg second, parsingQ]
    · simp only [if_pos exponent, if_neg first, parsingP]
  · simp only [if_neg exponent, parsingD]

def sampleRsaKey : RsaKey where
  keySize := 2048
  supported := .inl rfl
  modulus := 2 ^ 2047
  publicExponent := 65537
  privateExponent := 2 ^ 2039
  prime1 := 2 ^ 1023
  prime2 := 2 ^ 1022
  exponent1 := 3
  exponent2 := 5
  coefficient := 7
  le_modulus := by decide +kernel
  modulus_lt := by decide +kernel
  small := by decide +kernel

theorem getpriv_rsa_sample : ∃ minimal, Der.Element.readNumbers minimal = some sampleRsaKey.minimal ∧
    readC (emitPrivate minimal) = some (minimal, minimal.length) ∧
    getpriv true (some (.rsa sampleRsaKey)) = (emitPrivate minimal, none) := by
  obtain ⟨minimal, numbers, read, printed⟩ := getpriv_rsa sampleRsaKey rfl
  have exponent : 2 ^ 2039 ≤ sampleRsaKey.privateExponent := by decide +kernel
  have first : 2 ^ 1015 ≤ sampleRsaKey.prime1 ∧ sampleRsaKey.prime1 < 2 ^ 2039 := by decide +kernel
  have second : 2 ^ 1015 ≤ sampleRsaKey.prime2 ∧ sampleRsaKey.prime2 < 2 ^ 2039 := by decide +kernel
  rw [if_pos exponent, if_pos first, if_pos second] at printed
  exact ⟨minimal, numbers, read, printed⟩

end Read

end Motohs.Imgtool
