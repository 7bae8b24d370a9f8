import TraceViewer.Regex.Property
import TraceViewer.Text.Letter
import TraceViewer.Text.LetterCase

/-!
Character classes of patterns. A class is an expression over ranges, named sets and set operations;
ignoring case closes a class under simple case folding.
-/

namespace TraceViewer.Regex

open TraceViewer.Text

/-- Simple case folding: each character with case variants moves to the least of them. -/
def foldRuns : List CaseRun := CaseRun.listOfLines
    ["61:7a:1:-20 e0:f6:1:-20 f8:fe:1:-20 101:12f:2:-1 133:137:2:-1 13a:148:2:-1 14b:177:2:-1",
    "178:178:1:-79 17a:17e:2:-1 17f:17f:1:-12c 183:185:2:-1 188:188:1:-1 18c:18c:1:-1",
    "192:192:1:-1 199:199:1:-1 1a1:1a5:2:-1 1a8:1a8:1:-1 1ad:1ad:1:-1 1b0:1b0:1:-1 1b4:1b6:2:-1",
    "1b9:1b9:1:-1 1bd:1bd:1:-1 1c5:1c5:1:-1 1c6:1c6:1:-2 1c8:1c8:1:-1 1c9:1c9:1:-2 1cb:1cb:1:-1",
    "1cc:1cc:1:-2 1ce:1dc:2:-1 1dd:1dd:1:-4f 1df:1ef:2:-1 1f2:1f2:1:-1 1f3:1f3:1:-2",
    "1f5:1f5:1:-1 1f6:1f6:1:-61 1f7:1f7:1:-38 1f9:21f:2:-1 220:220:1:-82 223:233:2:-1",
    "23c:23c:1:-1 23d:23d:1:-a3 242:242:1:-1 243:243:1:-c3 247:24f:2:-1 253:253:1:-d2",
    "254:254:1:-ce 256:257:1:-cd 259:259:1:-ca 25b:25b:1:-cb 260:260:1:-cd 263:263:1:-cf",
    "268:268:1:-d1 269:269:1:-d3 26f:26f:1:-d3 272:272:1:-d5 275:275:1:-d6 280:280:1:-da",
    "283:283:1:-da 288:288:1:-da 289:289:1:-45 28a:28b:1:-d9 28c:28c:1:-47 292:292:1:-db",
    "371:373:2:-1 377:377:1:-1 399:399:1:-54 39c:39c:1:-2e7 3ac:3ac:1:-26 3ad:3af:1:-25",
    "3b1:3b8:1:-20 3b9:3b9:1:-74 3ba:3bb:1:-20 3bc:3bc:1:-307 3bd:3c1:1:-20 3c2:3c2:1:-1f",
    "3c3:3cb:1:-20 3cc:3cc:1:-40 3cd:3ce:1:-3f 3d0:3d0:1:-3e 3d1:3d1:1:-39 3d5:3d5:1:-2f",
    "3d6:3d6:1:-36 3d7:3d7:1:-8 3d9:3ef:2:-1 3f0:3f0:1:-56 3f1:3f1:1:-50 3f3:3f3:1:-74",
    "3f4:3f4:1:-5c 3f5:3f5:1:-60 3f8:3f8:1:-1 3f9:3f9:1:-7 3fb:3fb:1:-1 3fd:3ff:1:-82",
    "430:44f:1:-20 450:45f:1:-50 461:481:2:-1 48b:4bf:2:-1 4c2:4ce:2:-1 4cf:4cf:1:-f",
    "4d1:52f:2:-1 561:586:1:-30 13f8:13fd:1:-8 1c80:1c80:1:-186e 1c81:1c81:1:-186d",
    "1c82:1c82:1:-1864 1c83:1c84:1:-1862 1c85:1c85:1:-1863 1c86:1c86:1:-185c 1c87:1c87:1:-1825",
    "1c8a:1c8a:1:-1 1c90:1cba:1:-bc0 1cbd:1cbf:1:-bc0 1e01:1e95:2:-1 1e9b:1e9b:1:-3b",
    "1e9e:1e9e:1:-1dbf 1ea1:1eff:2:-1 1f08:1f0f:1:-8 1f18:1f1d:1:-8 1f28:1f2f:1:-8",
    "1f38:1f3f:1:-8 1f48:1f4d:1:-8 1f59:1f5f:2:-8 1f68:1f6f:1:-8 1f88:1f8f:1:-8 1f98:1f9f:1:-8",
    "1fa8:1faf:1:-8 1fb8:1fb9:1:-8 1fba:1fbb:1:-4a 1fbc:1fbc:1:-9 1fbe:1fbe:1:-1c79",
    "1fc8:1fcb:1:-56 1fcc:1fcc:1:-9 1fd3:1fd3:1:-1c43 1fd8:1fd9:1:-8 1fda:1fdb:1:-64",
    "1fe3:1fe3:1:-1c33 1fe8:1fe9:1:-8 1fea:1feb:1:-70 1fec:1fec:1:-7 1ff8:1ff9:1:-80",
    "1ffa:1ffb:1:-7e 1ffc:1ffc:1:-9 2126:2126:1:-1d7d 212a:212a:1:-20df 212b:212b:1:-2066",
    "214e:214e:1:-1c 2170:217f:1:-10 2184:2184:1:-1 24d0:24e9:1:-1a 2c30:2c5f:1:-30",
    "2c61:2c61:1:-1 2c62:2c62:1:-29f7 2c63:2c63:1:-ee6 2c64:2c64:1:-29e7 2c65:2c65:1:-2a2b",
    "2c66:2c66:1:-2a28 2c68:2c6c:2:-1 2c6d:2c6d:1:-2a1c 2c6e:2c6e:1:-29fd 2c6f:2c6f:1:-2a1f",
    "2c70:2c70:1:-2a1e 2c73:2c73:1:-1 2c76:2c76:1:-1 2c7e:2c7f:1:-2a3f 2c81:2ce3:2:-1",
    "2cec:2cee:2:-1 2cf3:2cf3:1:-1 2d00:2d25:1:-1c60 2d27:2d27:1:-1c60 2d2d:2d2d:1:-1c60",
    "a641:a649:2:-1 a64a:a64a:1:-89c2 a64b:a64b:1:-89c3 a64d:a66d:2:-1 a681:a69b:2:-1",
    "a723:a72f:2:-1 a733:a76f:2:-1 a77a:a77c:2:-1 a77d:a77d:1:-8a04 a77f:a787:2:-1",
    "a78c:a78c:1:-1 a78d:a78d:1:-a528 a791:a793:2:-1 a797:a7a9:2:-1 a7aa:a7aa:1:-a544",
    "a7ab:a7ab:1:-a54f a7ac:a7ac:1:-a54b a7ad:a7ad:1:-a541 a7ae:a7ae:1:-a544 a7b0:a7b0:1:-a512",
    "a7b1:a7b1:1:-a52a a7b2:a7b2:1:-a515 a7b5:a7c3:2:-1 a7c4:a7c4:1:-30 a7c5:a7c5:1:-a543",
    "a7c6:a7c6:1:-8a38 a7c8:a7ca:2:-1 a7cb:a7cb:1:-a567 a7cd:a7cd:1:-1 a7d1:a7db:2:-1",
    "a7dc:a7dc:1:-a641 a7f6:a7f6:1:-1 ab53:ab53:1:-3a0 ab70:abbf:1:-97d0 fb06:fb06:1:-1",
    "ff41:ff5a:1:-20 10428:1044f:1:-28 104d8:104fb:1:-28 10597:105a1:1:-27 105a3:105b1:1:-27",
    "105b3:105b9:1:-27 105bb:105bc:1:-27 10cc0:10cf2:1:-40 10d70:10d85:1:-20 118c0:118df:1:-20",
    "16e60:16e7f:1:-20 1e922:1e943:1:-22"]

/-- The least character that differs from `c` in case only. -/
def fold (c : Char) : Char :=
  if c.isLower then c.toUpper
  else if c.toNat < 0x80 then c
  else Char.ofNat (shiftBy foldRuns c.toNat)

/-- The characters that differ from `c` in case only, `c` among them. -/
def caseVariants (c : Char) : List Char :=
  let base := fold c
  let others := foldRuns.filterMap fun r =>
    let n := ((base.toNat : Int) - r.shift).toNat
    if r.covers n then some (Char.ofNat n) else none
  base :: others

/-- The decimal digits of all scripts. -/
def decimalTable : CharSet := .ofLines
    ["30-39 660-669 6f0-6f9 7c0-7c9 966-96f 9e6-9ef a66-a6f ae6-aef b66-b6f be6-bef c66-c6f",
    "ce6-cef d66-d6f de6-def e50-e59 ed0-ed9 f20-f29 1040-1049 1090-1099 17e0-17e9 1810-1819",
    "1946-194f 19d0-19d9 1a80-1a89 1a90-1a99 1b50-1b59 1bb0-1bb9 1c40-1c49 1c50-1c59 a620-a629",
    "a8d0-a8d9 a900-a909 a9d0-a9d9 a9f0-a9f9 aa50-aa59 abf0-abf9 ff10-ff19 104a0-104a9",
    "10d30-10d39 10d40-10d49 11066-1106f 110f0-110f9 11136-1113f 111d0-111d9 112f0-112f9",
    "11450-11459 114d0-114d9 11650-11659 116c0-116c9 116d0-116e3 11730-11739 118e0-118e9",
    "11950-11959 11bf0-11bf9 11c50-11c59 11d50-11d59 11da0-11da9 11f50-11f59 16130-16139",
    "16a60-16a69 16ac0-16ac9 16b50-16b59 16d70-16d79 1ccf0-1ccf9 1d7ce-1d7ff 1e140-1e149",
    "1e2f0-1e2f9 1e4f0-1e4f9 1e5f1-1e5fa 1e950-1e959 1fbf0-1fbf9"]

/-- The marks, joiners and connectors from U+0080 on that words may hold. -/
def wordExtraTable : CharSet := .ofLines
    ["300-36f 483-489 591-5bd 5bf 5c1-5c2 5c4-5c5 5c7 610-61a 64b-669 670 6d6-6dc 6df-6e4",
    "6e7-6e8 6ea-6ed 6f0-6f9 711 730-74a 7a6-7b0 7c0-7c9 7eb-7f3 7fd 816-819 81b-823 825-827",
    "829-82d 859-85b 897-89f 8ca-8e1 8e3-903 93a-93c 93e-94f 951-957 962-963 966-96f 981-983",
    "9bc 9be-9c4 9c7-9c8 9cb-9cd 9d7 9e2-9e3 9e6-9ef 9fe a01-a03 a3c a3e-a42 a47-a48 a4b-a4d",
    "a51 a66-a71 a75 a81-a83 abc abe-ac5 ac7-ac9 acb-acd ae2-ae3 ae6-aef afa-aff b01-b03 b3c",
    "b3e-b44 b47-b48 b4b-b4d b55-b57 b62-b63 b66-b6f b82 bbe-bc2 bc6-bc8 bca-bcd bd7 be6-bef",
    "c00-c04 c3c c3e-c44 c46-c48 c4a-c4d c55-c56 c62-c63 c66-c6f c81-c83 cbc cbe-cc4 cc6-cc8",
    "cca-ccd cd5-cd6 ce2-ce3 ce6-cef cf3 d00-d03 d3b-d3c d3e-d44 d46-d48 d4a-d4d d57 d62-d63",
    "d66-d6f d81-d83 dca dcf-dd4 dd6 dd8-ddf de6-def df2-df3 e31 e34-e3a e47-e4e e50-e59 eb1",
    "eb4-ebc ec8-ece ed0-ed9 f18-f19 f20-f29 f35 f37 f39 f3e-f3f f71-f84 f86-f87 f8d-f97",
    "f99-fbc fc6 102b-103e 1040-1049 1056-1059 105e-1060 1062-1064 1067-106d 1071-1074",
    "1082-108d 108f-109d 135d-135f 1712-1715 1732-1734 1752-1753 1772-1773 17b4-17d3 17dd",
    "17e0-17e9 180b-180d 180f-1819 1885-1886 18a9 1920-192b 1930-193b 1946-194f 19d0-19d9",
    "1a17-1a1b 1a55-1a5e 1a60-1a7c 1a7f-1a89 1a90-1a99 1ab0-1ace 1b00-1b04 1b34-1b44 1b50-1b59",
    "1b6b-1b73 1b80-1b82 1ba1-1bad 1bb0-1bb9 1be6-1bf3 1c24-1c37 1c40-1c49 1c50-1c59 1cd0-1cd2",
    "1cd4-1ce8 1ced 1cf4 1cf7-1cf9 1dc0-1dff 200c-200d 203f-2040 2054 20d0-20f0 2cef-2cf1 2d7f",
    "2de0-2dff 302a-302f 3099-309a a620-a629 a66f-a672 a674-a67d a69e-a69f a6f0-a6f1 a802 a806",
    "a80b a823-a827 a82c a880-a881 a8b4-a8c5 a8d0-a8d9 a8e0-a8f1 a8ff-a909 a926-a92d a947-a953",
    "a980-a983 a9b3-a9c0 a9d0-a9d9 a9e5 a9f0-a9f9 aa29-aa36 aa43 aa4c-aa4d aa50-aa59 aa7b-aa7d",
    "aab0 aab2-aab4 aab7-aab8 aabe-aabf aac1 aaeb-aaef aaf5-aaf6 abe3-abea abec-abed abf0-abf9",
    "fb1e fe00-fe0f fe20-fe2f fe33-fe34 fe4d-fe4f ff10-ff19 ff3f 101fd 102e0 10376-1037a",
    "104a0-104a9 10a01-10a03 10a05-10a06 10a0c-10a0f 10a38-10a3a 10a3f 10ae5-10ae6 10d24-10d27",
    "10d30-10d39 10d40-10d49 10d69-10d6d 10eab-10eac 10efc-10eff 10f46-10f50 10f82-10f85",
    "11000-11002 11038-11046 11066-11070 11073-11074 1107f-11082 110b0-110ba 110c2 110f0-110f9",
    "11100-11102 11127-11134 11136-1113f 11145-11146 11173 11180-11182 111b3-111c0 111c9-111cc",
    "111ce-111d9 1122c-11237 1123e 11241 112df-112ea 112f0-112f9 11300-11303 1133b-1133c",
    "1133e-11344 11347-11348 1134b-1134d 11357 11362-11363 11366-1136c 11370-11374 113b8-113c0",
    "113c2 113c5 113c7-113ca 113cc-113d0 113d2 113e1-113e2 11435-11446 11450-11459 1145e",
    "114b0-114c3 114d0-114d9 115af-115b5 115b8-115c0 115dc-115dd 11630-11640 11650-11659",
    "116ab-116b7 116c0-116c9 116d0-116e3 1171d-1172b 11730-11739 1182c-1183a 118e0-118e9",
    "11930-11935 11937-11938 1193b-1193e 11940 11942-11943 11950-11959 119d1-119d7 119da-119e0",
    "119e4 11a01-11a0a 11a33-11a39 11a3b-11a3e 11a47 11a51-11a5b 11a8a-11a99 11bf0-11bf9",
    "11c2f-11c36 11c38-11c3f 11c50-11c59 11c92-11ca7 11ca9-11cb6 11d31-11d36 11d3a 11d3c-11d3d",
    "11d3f-11d45 11d47 11d50-11d59 11d8a-11d8e 11d90-11d91 11d93-11d97 11da0-11da9 11ef3-11ef6",
    "11f00-11f01 11f03 11f34-11f3a 11f3e-11f42 11f50-11f5a 13440 13447-13455 1611e-16139",
    "16a60-16a69 16ac0-16ac9 16af0-16af4 16b30-16b36 16b50-16b59 16d70-16d79 16f4f 16f51-16f87",
    "16f8f-16f92 16fe4 16ff0-16ff1 1bc9d-1bc9e 1ccf0-1ccf9 1cf00-1cf2d 1cf30-1cf46 1d165-1d169",
    "1d16d-1d172 1d17b-1d182 1d185-1d18b 1d1aa-1d1ad 1d242-1d244 1d7ce-1d7ff 1da00-1da36",
    "1da3b-1da6c 1da75 1da84 1da9b-1da9f 1daa1-1daaf 1e000-1e006 1e008-1e018 1e01b-1e021",
    "1e023-1e024 1e026-1e02a 1e08f 1e130-1e136 1e140-1e149 1e2ae 1e2ec-1e2f9 1e4ec-1e4f9",
    "1e5ee-1e5ef 1e5f1-1e5fa 1e8d0-1e8d6 1e944-1e94a 1e950-1e959 1fbf0-1fbf9 e0100-e01ef"]

/-- Whether a character may stand in a word. -/
def isWordChar (c : Char) : Bool :=
  if c.toNat < 0x80 then c.isAlphanum || c == '_'
  else isAlphabetic c || wordExtraTable.contains c

/-- A set of characters in a pattern. -/
inductive CharClass where
  | range (low high : Char)
  | having (property : Char → Bool)
  | none
  | union (a b : CharClass)
  | inter (a b : CharClass)
  | diff (a b : CharClass)
  | symmDiff (a b : CharClass)
  | not (a : CharClass)
  | ignoringCase (a : CharClass)

namespace CharClass

def contains : CharClass → Char → Bool
  | .range low high, c => low ≤ c && c ≤ high
  | .having property, c => property c
  | .none, _ => false
  | .union a b, c => a.contains c || b.contains c
  | .inter a b, c => a.contains c && b.contains c
  | .diff a b, c => a.contains c && !b.contains c
  | .symmDiff a b, c => a.contains c != b.contains c
  | .not a, c => !a.contains c
  | .ignoringCase a, c => (caseVariants c).any a.contains

def ofChar (c : Char) : CharClass := .range c c

def digit : CharClass := .having decimalTable.contains

def space : CharClass := .having isBlank

def word : CharClass := .having isWordChar

/-- Whether a class holds only characters of ASCII, decided on its form. -/
def isAscii : CharClass → Bool
  | .range _ high => high.toNat < 0x80
  | .having _ => false
  | .none => true
  | .union a b => a.isAscii && b.isAscii
  | .inter a b => a.isAscii || b.isAscii
  | .diff a _ => a.isAscii
  | .symmDiff a b => a.isAscii && b.isAscii
  | .not _ => false
  | .ignoringCase a => a.isAscii

end CharClass

/-- The classes of ASCII that a bracket may name. -/
def asciiClass? (name : String) : Option CharClass :=
  let ranges (rs : List (Char × Char)) : CharClass :=
    rs.foldl (fun acc r => .union acc (.range r.1 r.2)) .none
  match name with
  | "alnum" => some (ranges [('0', '9'), ('A', 'Z'), ('a', 'z')])
  | "alpha" => some (ranges [('A', 'Z'), ('a', 'z')])
  | "ascii" => some (ranges [('\x00', '\x7f')])
  | "blank" => some (ranges [('\t', '\t'), (' ', ' ')])
  | "cntrl" => some (ranges [('\x00', '\x1f'), ('\x7f', '\x7f')])
  | "digit" => some (ranges [('0', '9')])
  | "graph" => some (ranges [('!', '~')])
  | "lower" => some (ranges [('a', 'z')])
  | "print" => some (ranges [(' ', '~')])
  | "punct" => some (ranges [('!', '/'), (':', '@'), ('[', '\x60'), ('\x7b', '~')])
  | "space" => some (ranges [('\t', '\r'), (' ', ' ')])
  | "upper" => some (ranges [('A', 'Z')])
  | "word" => some (ranges [('0', '9'), ('A', 'Z'), ('_', '_'), ('a', 'z')])
  | "xdigit" => some (ranges [('0', '9'), ('A', 'F'), ('a', 'f')])
  | _ => Option.none

end TraceViewer.Regex
