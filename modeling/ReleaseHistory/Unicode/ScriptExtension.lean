import ReleaseHistory.Unicode.Spans

/-!
# Script extensions

The characters that are used with each script, by the names of the script. The names are in lower
case, without blanks, hyphens and underscores.
-/

namespace ReleaseHistory.Unicode.ScriptExtension

/-- Adlam to Cypriot. -/
def part1 : List (List String × String) :=
  [(["adlam", "adlm"],
      "17j 1 w 1 2ncv 24 4 a 4 2"),
    (["ahom"],
      "1j40 r 2 f 4 n"),
    (["anatolianhieroglyphs", "hluw"],
      "1s00 g7"),
    (["arabic", "arab"],
      "16o 5 1 5z 1 y 28 1c 6o v 1 2 6 22 1 t 1bv4 37 g cd 2 1i 7 1 w g 34 5 1 3r rn s 290 v 3" ++
      "i 3 181s 4 1 r 1 2 1 1 2 1 1 a 1 4 1 1 1 1 6 1 4 1 1 1 1 1 1 3 1 2 1 1 2 1 1 1 1 1 1 1 " ++
      "1 1 1 2 1 1 2 4 1 7 1 4 1 4 1 1 1 a 1 h 5 3 1 5 1 h 1g 2"),
    (["armenian", "armn"],
      "10x 12 2 1e 2 3 1chv 5"),
    (["avestan", "avst"],
      "1gqo 1i 3 7"),
    (["balinese", "bali"],
      "5c0 25 3 1b"),
    (["bamum", "bamu"],
      "www 2g 124o ft"),
    (["bassavah", "bass"],
      "1zo0 u 2 6"),
    (["batak", "batk"],
      "5hc 1g 8 4"),
    (["bengali", "beng"],
      "1u9 2 h 2 q 4 1 8 2 2 2 m 1 7 1 1 3 4 2 9 2 2 2 4 8 1 4 2 1 5 2 p 3pt 1 1 1 2 2 1 1 8 1 " ++
      "8 1 2 1 4 1 2 3 rnd 1"),
    (["bhaiksuki", "bhks"],
      "1k3k 9 1 19 1 e a t"),
    (["bopomofo", "bopo"],
      "kq 2 8wl 3 4 a 1 d a 4 2 1 6 1 5f 1 9 17 34 w 14ed 2 7u 5"),
    (["brahmi", "brah"],
      "1hq8 26 4 10 9 1"),
    (["braille", "brai"],
      "7wg 74"),
    (["buginese", "bugi"],
      "54w s 2 2 sdr 1"),
    (["buhid", "buhd"],
      "4l1 2 9 k"),
    (["canadianaboriginal", "cans"],
      "3y8 hs fk 1y 1ewq g"),
    (["carian", "cari"],
      "1f34 1d"),
    (["caucasianalbanian", "aghb"],
      "1flc 1g b 1"),
    (["chakma", "cakm"],
      "1ye a 18w a 1epi 1h 1 i"),
    (["cham"],
      "xkw 1j 9 e 2 a 2 4"),
    (["cherokee", "cher"],
      "3vk 2e 2 6 twy 28"),
    (["chorasmian", "chrs"],
      "1ho0 s"),
    (["common", "zyyy"],
      "0 1t q 6 q 1b 1 f 1 5 n 1 v 1 ch 13 5 5 2 k 38 1 9 1 6 1 1 1 hp 1 5z 1 ec 1 124 1 b9 4 1" ++
      "ea 3 1si c 2 x 1 1h 1 b 3 b 1 f h x 1r 12 1 3 2 6 1 r 1 h 15 3 4 if p b l ps 74 hg 2 w " ++
      "1 2x e8 1v 1 q b6 c 4 1 3 1 d 1 d 1 l 1 ep o v 1 1d f c 4 4h a 5 2o v 1 534 1s hl4 q 2u " ++
      "3 r4 1 e 2 gbo a m l 2 c 1 j 1 4 43 1 1 w q 6 q 6 3j 7 1 7 a 5 b6 d 1f 19 14k3 38 1o 6u " ++
      "a 13 2 1q 3 h 8 2 7 u 4 1p 5x k c k c 2f r 7 3r 2d 1 1z 1 2 2 1 2 2 2 4 1 c 1 1 1 7 1 1" ++
      "t 1 4 2 8 1 7 1 s 1 4 1 5 1 1 3 7 1 9g 2 84 2 1e 41d 1w 24 1p jm 18 4 2s c f 2 f 1 f 1 1" ++
      "1 a 4u 1k q 1 2 d 18 4 9 n 6 4a rc 4 h 3 d 3 3b 4 2n 6 c 4 1 f c 4 1k 8 a 6 14 8 u 2 2 2" ++
      "6 9g c e 2 d 3 9 7 1a 1 7 8 e 4 9 7 9 7 43 1 1j 11 a gvlz 1 u 2o"),
    (["coptic", "copt", "qaac"],
      "rm e 80g 38 5 7 168w s"),
    (["cuneiform", "xsux"],
      "1kw0 pm 2u 33 1 5 b 5g"),
    (["cypriot", "cprt"],
      "1erk 3 4 19 3 9 1c0 6 2 1 1 18 1 2 3 1 2 1")]

/-- Cypro Minoan to Inherited. -/
def part2 : List (List String × String) :=
  [(["cyprominoan", "cpmn"],
      "1erk 2 972 2r"),
    (["cyrillic", "cyrl"],
      "sg 8g 4ls 9 4i 1 24 1 3j 1 353 w 1v 1 np8 2o ham 2 18n4 1q x 1"),
    (["deseret", "dsrt"],
      "1fcw 28"),
    (["devanagari", "deva"],
      "1s0 2b 2 17 3tc 13 1 2 s6 1 qpr a 4m w mio a"),
    (["divesakuru", "diak"],
      "1ji8 7 2 1 2 8 1 2 1 u 1 2 2 c 9 a"),
    (["dogra", "dogr"],
      "1us c vcw a m2u 1o"),
    (["duployan", "dupl"],
      "2fpc 2z 5 d 3 9 7 a 2 8"),
    (["egyptianhieroglyphs", "egyp"],
      "1o1s uu"),
    (["elbasan", "elba"],
      "1fk0 14"),
    (["elymaic", "elym"],
      "1hpc n"),
    (["ethiopic", "ethi"],
      "3k0 21 1 4 2 7 1 1 1 4 2 15 1 4 2 x 1 4 2 7 1 1 1 4 2 f 1 1l 1 4 2 1v 2 w 3 q 546 n 9 7 " ++
      "1 7 1 7 1 7 1 7 1 7 1 7 1 7 opu 6 2 6 2 6 9 7 1 7 1qk1 7 1 4 1 2 1 f"),
    (["georgian", "geor"],
      "3a8 12 1 1 5 1 2 1c 2a8 17 2 3 37k 12 1 1 5 1"),
    (["glagolitic", "glag"],
      "w4 1 2 1 7so 2o df 1 nqj 1 1pxs 7 1 h 2 7 1 2 1 5"),
    (["gothic", "goth"],
      "1f74 r"),
    (["grantha", "gran"],
      "1u9 2 h 2 hs e 3bw 1 1 2 u 3 3 2 s6 1 1btb 4 1 8 2 2 2 m 1 7 1 2 1 5 1 a 2 2 2 3 2 1 6 " ++
      "1 5 7 2 7 3 5 2fv 2 1 1"),
    (["greek", "grek"],
      "n6 1 2 1 16 4 1 3 2 4 1 1 4 1 1 1 1 3 1 1 1 k 1 1r e g 4yu 5 1e 5 4 5 2c 3 8u m 2 6 2 1" ++
      "2 2 6 2 8 1 1 1 1 1 1 1 v 2 1h 1 f 1 e 2 6 1 j 2 3 1 9 87 1 rb2 1 gyi 27 h 1 155r 1y"),
    (["gujarati", "gujr"],
      "1u9 2 h 2 7v 3 1 9 1 3 1 m 1 7 1 2 1 5 2 a 1 3 1 3 2 1 f 4 2 c 7 7 v1s a"),
    (["gunjalagondi", "gong"],
      "1us 2 1iii 6 1 2 1 11 1 2 1 6 7 a"),
    (["gurmukhi", "guru"],
      "1u9 2 h 2 4b 3 1 6 4 2 2 m 1 7 1 2 1 2 1 2 2 1 1 5 4 2 2 3 3 1 7 4 1 1 7 h v5l a"),
    (["han", "hani"],
      "96o q 1 2h c 5y 17 3 1 d 1 d 1 d 2 1 6 9 57 1 44 g w 10 1o 14 1k 1d f c 1f 1 2g p a 5 2" ++
      "o v 1 534 1s g74 1ds 8 g6w a6 2 2y ob 2 7u 5 m7w 2 c 2 jn2 i 63i 2 2pa wyo w 37e 6 66 2 " ++
      "4g2 e 5rl 2e7 f2 15u 3t7 5 38g"),
    (["hangul", "hang"],
      "3cw 74 5xd 3 4 a 1 d e 3 6 1 5f 1 1h 2m 35 v 1t v nhd t hv 8mc c n 4 1d 7k9 2 7u 5 1m v " ++
      "3 6 2 6 2 6 2 3"),
    (["hanifirohingya", "rohg"],
      "170 1 e 1 3 1 w 1 43 1 1fsb 14 8 a"),
    (["hanunoo", "hano"],
      "4kg n"),
    (["hatran", "hatr"],
      "1gbk j 1 2 5 5"),
    (["hebrew", "hebr"],
      "13l 1j 8 r 4 6 1cfc q 1 5 1 1 1 2 1 2 1 a"),
    (["hiragana", "hira"],
      "9hd 3 4 a 1 d g 6 1 1 4 2 3 2e 2 8 2i 2 14js 2 7u 5 a 1 19 2 yu9 7z i 1 t 3 crx 1"),
    (["imperialaramaic", "armi"],
      "1g74 m 1 9"),
    (["inherited", "zinh", "qaai"],
      "lc 1u 1 2 1 t 168 2 3ff v kz 1i 1 1 1 5 ek 2 5e w 17o0 g g e r3 1 14hu 1a 2 n f4 3 h 8 " ++
      "2 7 u 4 h45u 6o")]

/-- Inscriptional Pahlavi to Marchen. -/
def part3 : List (List String × String) :=
  [(["inscriptionalpahlavi", "phli"],
      "1gtc j 5 8"),
    (["inscriptionalparthian", "prti"],
      "1gsg m 2 8"),
    (["javanese", "java"],
      "xhc 26 1 b 4 2"),
    (["kaithi", "kthi"],
      "1uu a vcw a kli 1v a 1"),
    (["kannada", "knda"],
      "1u9 2 h 2 m2 d 1 3 1 n 1 a 1 5 2 9 1 3 1 4 7 2 6 2 1 4 2 a 1 3 34s 1 1 1 7 1 n 1 1 1 ri" ++
      "3 6"),
    (["katakana", "kana"],
      "9hd 3 4 a 1 d g 6 1 1 4 2 2j 4 3 2o 6o g 5s 1b 1 2g 1431 2 7u 1r yts 4 1 7 1 2 1 1 7z 3 " ++
      "1e 1 e 4"),
    (["kawi"],
      "1kow h 1 15 3 s"),
    (["kayahli", "kali"],
      "xds 1c"),
    (["kharoshthi", "khar"],
      "1gjk 4 1 2 5 8 1 3 1 t 2 3 4 a 7 9"),
    (["khitansmallscript", "kits"],
      "20o4 1 5cr d2"),
    (["khmer", "khmr"],
      "4n4 2m 2 a 6 a di w"),
    (["khojki", "khoj"],
      "25i a v28 a kw6 i 1 1b"),
    (["khudawadi", "sind"],
      "1us 2 vd6 a l12 1n 5 a"),
    (["lao", "laoo"],
      "2v5 2 1 1 1 5 1 o 1 1 1 n 2 5 1 1 1 7 1 a 2 4"),
    (["latin", "latn"],
      "1t q 6 q 1b 1 f 1 5 n 1 v 1 ch 13 5 3i d 7p 2 y2 2 1ig 1 2dg 12 6 1d 5 4 5 d 1 1y 1t 74 " ++
      "8f 1 1t 1 d 1 g d 2b 1 1l 2 6 1 r 1 h 15 253 w o74 8 q 2u 3 1s 5 2 1 1 1 5 o e 8e 1 e9 1" ++
      "7 1 9 1 4 fpy 7 t6 q 6 q 1lx 6 1 16 1 9 16it v 6 6"),
    (["lepcha", "lepc"],
      "5j4 1k 3 f 3 3"),
    (["limbu", "limb"],
      "1ut 1 32y v 1 c 4 c 4 1 3 c"),
    (["lineara", "lina"],
      "1err 19 y4 8n 9 m a 8"),
    (["linearb", "linb"],
      "1ekg c 1 q 1 j 1 2 1 f 2 e y 3f 5 3 4 19 3 9"),
    (["lisu"],
      "wk0 1c o8g 1"),
    (["lycian", "lyci"],
      "1f28 t"),
    (["lydian", "lydi"],
      "1gdc q 5 1"),
    (["mahajani", "mahj"],
      "1us c vcw a kra 13"),
    (["makasar", "maka"],
      "1ko0 p"),
    (["malayalam", "mlym"],
      "1u9 2 h 2 pm d 1 3 1 1f 1 3 1 6 4 g 2 q 316 1 rit 3"),
    (["mandaic", "mand"],
      "18g 1 e7 s 2 1"),
    (["manichaean", "mani"],
      "18g 1 1fgf 13 4 c"),
    (["marchen", "marc"],
      "1k6o w 2 m 1 e")]

/-- Masaram Gondi to Old Sogdian. -/
def part4 : List (List String × String) :=
  [(["masaramgondi", "gonm"],
      "1us 2 1ifu 7 1 2 1 18 3 1 1 2 1 9 8 a"),
    (["medefaidrin", "medf"],
      "20cg 2j"),
    (["meeteimayek", "mtei"],
      "xr4 n 5l 1a 2 a"),
    (["mendekikakui", "mend"],
      "2oe8 5h 2 g"),
    (["meroiticcursive", "merc"],
      "1ggw o 4 k 2 1a"),
    (["meroitichieroglyphs", "mero"],
      "1gg0 w"),
    (["miao", "plrd"],
      "20hs 23 4 1l 7 h"),
    (["modi"],
      "x80 a lom 1x b a"),
    (["mongolian", "mong"],
      "4qo q 6 2h 7 17 1hg 1 1cmo d"),
    (["mro", "mroo"],
      "1zk0 v 1 a 4 2"),
    (["multani", "mult"],
      "21y a 1g5s 7 1 1 1 4 1 f 1 b"),
    (["myanmar", "mymr"],
      "35s 4g u4u 1 4x v 2p w"),
    (["nabataean", "nbat"],
      "1g8w v 8 9"),
    (["nagmundari", "nagm"],
      "2nrk 16"),
    (["nandinagari", "nand"],
      "1us 2 ow a 35l 1 8 1 7 1 rhx 6 mei 8 2 1a 2 b"),
    (["newtailue", "talu"],
      "51c 18 4 q 6 b 3 2"),
    (["newa"],
      "1iio 2k 1 5"),
    (["nko", "nkoo"],
      "170 1 e 1 3 1 bk 1n 2 3 1cfy 2"),
    (["nushu", "nshu"],
      "20o1 1 cy6 b0"),
    (["nyiakengpuachuehmong", "hmnp"],
      "2n0g 19 3 e 2 a 4 2"),
    (["ogham", "ogam"],
      "4g0 t"),
    (["olchiki", "olck"],
      "5lc 1c"),
    (["oldhungarian", "hung"],
      "1h1c 1f d 1f 7 6"),
    (["olditalic", "ital"],
      "1f5s 10 9 3"),
    (["oldnortharabian", "narb"],
      "1gn4 w"),
    (["oldpermic", "perm"],
      "w3 1 1ebw 17"),
    (["oldpersian", "xpeo"],
      "1fa8 10 4 e"),
    (["oldsogdian", "sogo"],
      "1hj4 14")]

/-- Old South Arabian to Tagalog. -/
def part5 : List (List String × String) :=
  [(["oldsoutharabian", "sarb"],
      "1gm8 w"),
    (["oldturkic", "orkh"],
      "1gxs 21"),
    (["olduyghur", "ougr"],
      "18g 1 1fht 1 vx q"),
    (["oriya", "orya"],
      "1u9 2 h 2 bf 3 1 8 2 2 2 m 1 7 1 2 1 5 2 9 2 2 2 3 7 3 4 2 1 5 2 i 3fm 1 n 1"),
    (["osage", "osge"],
      "1fhs 10 4 10"),
    (["osmanya", "osma"],
      "1fgg u 2 a"),
    (["pahawhhmong", "hmng"],
      "1zpc 1y a a 1 7 1 l 5 j"),
    (["palmyrene", "palm"],
      "1g80 w"),
    (["paucinhau", "pauc"],
      "1juo 1l"),
    (["phagspa", "phag"],
      "4qq 2 1 1 shm 1k"),
    (["phoenician", "phnx"],
      "1gcg s 3 1"),
    (["psalterpahlavi", "phlp"],
      "18g 1 1flr i 7 4 c 7"),
    (["rejang", "rjng"],
      "xf4 10 b 1"),
    (["runic", "runr"],
      "4gw 23 3 b"),
    (["samaritan", "samr"],
      "1kw 1a 2 f"),
    (["saurashtra", "saur"],
      "xa8 1y 8 c"),
    (["sharada", "shrd"],
      "1u9 1 3ut 1 1 1 2 2 2 1 1cbj 2o"),
    (["shavian", "shaw"],
      "1ff4 1c"),
    (["siddham", "sidd"],
      "1itc 1i 2 12"),
    (["signwriting", "sgnw"],
      "2l8g i4 f 5 1 f"),
    (["sinhala", "sinh"],
      "1us 2 t7 3 1 i 3 o 1 9 1 1 2 7 3 1 4 6 1 1 1 8 6 a 2 3 1fcc k"),
    (["sogdian", "sogd"],
      "18g 1 1gbz 16"),
    (["sorasompeng", "sora"],
      "1hw0 p 7 a"),
    (["soyombo", "soyo"],
      "1jrk 2b"),
    (["sundanese", "sund"],
      "5fk 1s 74 8"),
    (["sylotinagri", "sylo"],
      "1us 2 3k a v80 19"),
    (["syriac", "syrc"],
      "170 1 e 2 2 1 w 1 a b q 1 3z e 1 1o 2 3 7k b 499 1 1 1"),
    (["tagalog", "tglg"],
      "4jk m 9 1 l 2")]

/-- Tagbanwa to Zanabazar Square. -/
def part6 : List (List String × String) :=
  [(["tagbanwa", "tagb"],
      "4l1 2 15 d 1 3 1 2"),
    (["taile", "tale"],
      "37k a 1s6 u 2 5"),
    (["taitham", "lana"],
      "55s 1r 1 t 2 b 6 a 6 e"),
    (["taiviet", "tavt"],
      "xog 1v o 5"),
    (["takri", "takr"],
      "1us 2 vd6 a ls6 1m 6 a"),
    (["tamil", "taml"],
      "1u9 2 h 2 f0 2 1 6 3 3 1 4 3 2 1 1 1 2 3 2 3 3 3 c 4 5 3 3 1 4 2 1 6 1 e l 3bz 1 ro8 1 k" ++
      "y5 1 1 1 1j 2 2gz 1e d 1"),
    (["tangsa", "tnsa"],
      "1zlc 27 1 a"),
    (["tangut", "tang"],
      "20o0 1 v 4qg 8 lc e8 9"),
    (["telugu", "telu"],
      "1u9 2 h 2 ii d 1 3 1 n 1 g 2 9 1 3 1 4 7 2 1 3 2 1 2 4 2 a 7 9 38a 1 n 1"),
    (["thaana", "thaa"],
      "170 1 e 2 2 1 1s a 7q 1e 1cn4 1 a 1"),
    (["thai"],
      "2rl 1m 5 s"),
    (["tibetan", "tibt"],
      "2yo 20 1 10 4 13 1 10 1 f 1 7 4 2"),
    (["tifinagh", "tfng"],
      "8xc 1k 7 2 e 1"),
    (["tirhuta", "tirh"],
      "1u9 2 h 2 3v0 1 ri5 a ldy 20 8 a"),
    (["toto"],
      "2nbk v"),
    (["ugaritic", "ugar"],
      "1f9c u 1 1"),
    (["vai", "vaii"],
      "wlc 8c"),
    (["vithkuqi", "vith"],
      "1fn4 b 1 f 1 7 1 2 1 b 1 f 1 7 1 2"),
    (["wancho", "wcho"],
      "2ncw 1m 5 1"),
    (["warangciti", "wara"],
      "1jfk 2b c 1"),
    (["yezidi", "yezi"],
      "170 1 e 1 3 1 1s a 1g5y 16 1 3 2 2"),
    (["yi", "yiii"],
      "9hd 2 5 a 2 8 67 1 lxg wd 3 1j hwa 5"),
    (["zanabazarsquare", "zanb"],
      "1jpc 20")]

def all : List (List String × String) :=
  part1 ++ part2 ++ part3 ++ part4 ++ part5 ++ part6

def find? (name : String) : Option Spans :=
  (all.find? (·.1.contains name)).map (Spans.ofTable ·.2)

end ReleaseHistory.Unicode.ScriptExtension
