import LanguageHost.Text.CodeRanges

/-!
# Scripts

The script of a code point, and the scripts that a code point is used in.  All names are in lower
case and without separators.
-/

namespace LanguageHost.Text.Script

/-- The names of each script with its code points in compact notation. -/
def table : List (List String × String) := [
  (["adlm", "adlam"], "DwI0Cb4941"),
  (["ahom"], "CFY0q2e4m"),
  (["hluw", "anatolianhieroglyphs"], "CRA0S6"),
  (["arab", "arabic"],
    String.join [
      "BQ04151d121v19bp1Db1B1CgBfHgu116C91sBySgDigLa2Cf2Bl70B0fDg41E6Dx3uDu2BXY031q111020191310",
      "1060401010121110201010101011102316131310191g52141gBk1"]),
  (["armn", "armenian"], "BJhB52Bh22BzM34"),
  (["avst", "avestan"], "CCY0Bl36"),
  (["bali", "balinese"], "GY0Cc3Be"),
  (["bamu", "bamum"], "BJV0CnBQI8Ro"),
  (["bass", "bassavah"], "CwWgt25"),
  (["batk", "batak"], "G+0Bj83"),
  (["beng", "bengali"], "CM0317212l1610332821238041142o"),
  (["bhks", "bhaiksuki"], "CHA081Bc1das"),
  (["bopo", "bopomofo"], "Xa1LQpBaDgv"),
  (["brah", "brahmi"], "CEA0Cd4B390"),
  (["brai", "braille"], "KA0Hv"),
  (["bugi", "buginese"], "GQ0r21"),
  (["buhd", "buhid"], "Fw0j"),
  (["cans", "canadianaboriginal"], "FA0TvRgC5CANqf"),
  (["cari", "carian"], "CAV0Bg"),
  (["aghb", "caucasianalbanian"], "CBJgBjb0"),
  (["cakm", "chakma"], "CEI0Bk1h"),
  (["cham"], "BKQ0Bm9d2923"),
  (["cher", "cherokee"], "Ez0Cl25BFxiCf"),
  (["chrs", "chorasmian"], "CDzgr"),
  (["zyyy", "common"],
    String.join [
      "0C0q5qBe1e14n0v0O1B6542jDk0906010Tt060e030B00Es0Q40E11BGp0Ml3J20BPf2C71Gb110BGd0d0731512",
      "20Y5b2Cm1a3a1ehB0BvB512251q1gB924UmpalyvI0Tj2v1D8Q0CtMib44101of743Cr130Cq1EjfB0B3BsBvvCg",
      "Bf0CoF7GO0BvWI0B1D62F59Hk0F00Mb0e1UOi1Gg9mB21i13Ej01vq5qaa0Bd1C0616a4I224Bc38CgcBjBcH4qB",
      "ON43EVcDjBsHlaB62Bt3g817t4BsGljcjcCm9oE7Ck1C6112021231b10161C01327161r131410361Kj2J32BhF",
      "DhC3CcBsW2Bb4D3ce2e1e1B4aFdBop11dBb4871e5Eq+n4g3c3Dm4Cu6b40fb4Bn896B78t21CeKjcd2c387Bd16",
      "8d48787Ei1BmB59YBA70uCv"]),
  (["copt", "coptic", "qaac"], "-2dKEgDj56"),
  (["xsux", "cuneiform"], "CIA0ypD6De14bG3"),
  (["cprt", "cypriot"], "CCA05201Bb113020"),
  (["cpmn", "cyprominoan"], "CLygD2"),
  (["cyrl", "cyrillic"], "BA0E42F8Fwg8F20Cc0ED7v+C0CvVye1BYQ0BtB10"),
  (["dsrt", "deseret"], "CBA0Cf"),
  (["deva", "devanagari"], "CI0Cg4e2pBHx0vyQ09"),
  (["diak", "divesakuru"], "CGI062027111t112b99"),
  (["dogr", "dogra"], "CGA0Br"),
  (["dupl", "duployan"], "DPA0Da5c387923"),
  (["egyp", "egyptianhieroglyphs"], "CMA0BCl"),
  (["elba", "elbasan"], "CBI0B7"),
  (["elym", "elymaic"], "CD-0m"),
  (["ethi", "ethiopic"],
    "EQ0C8132610132B8132B0132610132e1Bo132C22v3pGP6m9616161616161616-J2525259616CPFh613111e"),
  (["geor", "georgian"], "EF0B510502Ba13CygBa22EC0B51050"),
  (["glag", "glagolitic"], "LA0CvDMz061g261114"),
  (["goth", "gothic"], "CAZgq"),
  (["gran", "grantha"], "CEY0317212l1611142821222060562634"),
  (["grek", "greek"],
    String.join [
      "xg3122310401012101j1BuefGJ64Bi444Ck0K0l252B525271010101u2Bk1e1d251i2218J70BCRu0VOqCeh0BU",
      "CvC5"]),
  (["gujr", "gujarati"], "CU1218121l16111429121220f32b76"),
  (["gong", "gunjalagondi"], "CHL05111B4111579"),
  (["guru", "gurmukhi"], "CQ1215412l16111111201441223073107g"),
  (["hani", "han"],
    "LU0p1CocGlBf010p8e3+4GNvC0UPvWI0Ld2D9zI81c1BEAeBJWvB0EBp6Gt2FU1eHJgDAvQtBP2Ewa5ECv"),
  (["hang", "hangul"], "EI0HvHRe1I1CtDhuC1uzX1sU3Kz3cm4BgJz4u35252522"),
  (["rohg", "hanifirohingya"], "CDI0B789"),
  (["hano", "hanunoo"], "FZ0k"),
  (["hatr", "hatran"], "CCH0i1154"),
  (["hebr", "hebrew"], "BMhBm8q45BzJ8p1410111119"),
  (["hira", "hiragana"], "MC1Cl62C-x1Iui0t2QFd0"),
  (["armi", "imperialaramaic"], "CCC0l18"),
  (["zinh", "inherited", "qaai"],
    "Y0DfIl1O4aq0X03EKruQ121c16406031G6BvQc1G2B0DZp3Db1BTL5fgd+f0H20ECq0BO+4Bd2mR02h726u3YLwiHf"),
  (["phli", "inscriptionalpahlavi"], "CCx0i57"),
  (["prti", "inscriptionalparthian"], "CCw0l27"),
  (["java", "javanese"], "BKM0Cd2941"),
  (["kthi", "kaithi"], "CEE0C2a0"),
  (["knda", "kannada"], "DE0c121m19142812137161132912"),
  (["kana", "katakana"], "MF1Cp22HgfGgBe1CnBTAe91BcBMCi3161110Iv2Bi0e3"),
  (["kawi"], "CHY0g1B83r"),
  (["kali", "kayahli"], "BKI0Bd10"),
  (["khar", "kharoshthi"], "CCQ031157121s224978"),
  (["kits", "khitansmallscript"], "Cx-40GYrOl"),
  (["khmr", "khmer"], "Fy0Ct2969P6v"),
  (["khoj", "khojki"], "CEQ0h1Be"),
  (["sind", "khudawadi"], "CEVgBq59"),
  (["laoo", "lao"], "DU1110141n101m2410161923"),
  (["latn", "latin"],
    String.join [
      "C1p6pBf0f05m1u1O0B74GQrB56Bg535c1C5C1HvLh0d0gcEd160r0hB8CWnv+V2D53Bv511014odZgBa1813Tym6",
      "BAqp6pCB551B918BVw5u65"]),
  (["lepc", "lepcha"], "HA0Bn3e32"),
  (["limb", "limbu"], "GI0u1b4b403b"),
  (["lina", "lineara"], "CBQ0Jm9la7"),
  (["linb", "linearb"], "CAA0b1p1i111e2dB2Dq"),
  (["lisu"], "BJGgBf+Vg0"),
  (["lyci", "lycian"], "CAU0s"),
  (["lydi", "lydian"], "CCJ0p50"),
  (["mahj", "mahajani"], "CEKgB6"),
  (["maka", "makasar"], "CHX0o"),
  (["mlym", "malayalam"], "DI0c121Bi12154f2p"),
  (["mand", "mandaic"], "CC0r20"),
  (["mani", "manichaean"], "CCW0B64b"),
  (["marc", "marchen"], "CHDgv2l1d"),
  (["gonm", "masaramgondi"], "CHI06111Bb30111889"),
  (["medf", "medefaidrin"], "CxS0Cq"),
  (["mtei", "meeteimayek"], "BKX0mG9Bd29"),
  (["mend", "mendekikakui"], "DwA0G42f"),
  (["merc", "meroiticcursive"], "CCN0n4j2Bd"),
  (["mero", "meroitichieroglyphs"], "CCM0v"),
  (["plrd", "miao"], "CxY0Ca4Bo7g"),
  (["modi"], "CFQ0C4b9"),
  (["mong", "mongolian"], "GA01201j6Co7BaB-Nlc"),
  (["mroo", "mro"], "CwS0u1941"),
  (["mult", "multani"], "CEU0610131e1a"),
  (["mymr", "myanmar"], "EA0EvBGK0uD1v"),
  (["nbat", "nabataean"], "CCE0u88"),
  (["nagm", "nagmundari"], "DZGgB9"),
  (["nand", "nandinagari"], "CGN072Bd2a"),
  (["talu", "newtailue"], "GM0Bb4p6a31"),
  (["newa"], "CFA0Cr14"),
  (["nkoo", "nko"], "B+0Bq22"),
  (["nshu", "nushu"], "Cx-10QMeMb"),
  (["hmnp", "nyiakengpuachuehmong"], "DYI0Bc3d2941"),
  (["ogam", "ogham"], "FU0s"),
  (["olck", "olchiki"], "HCgBf"),
  (["hung", "oldhungarian"], "CDE0BidBi75"),
  (["ital", "olditalic"], "CAY0B392"),
  (["narb", "oldnortharabian"], "CCU0v"),
  (["perm", "oldpermic"], "CAwgBa"),
  (["xpeo", "oldpersian"], "CAz0B34d"),
  (["sogo", "oldsogdian"], "CDY0B7"),
  (["sarb", "oldsoutharabian"], "CCT0v"),
  (["orkh", "oldturkic"], "CDA0C8"),
  (["ougr", "olduyghur"], "CDxgp"),
  (["orya", "oriya"], "CY1217212l1611142821227241142h"),
  (["osge", "osage"], "CBFgB34B3"),
  (["osma", "osmanya"], "CBE0t29"),
  (["hmng", "pahawhhmong"], "CwY0C5a9161k5i"),
  (["palm", "palmyrene"], "CCD0v"),
  (["pauc", "paucinhau"], "CGW0Bo"),
  (["phag", "phagspa"], "BKC0Bn"),
  (["phnx", "phoenician"], "CCI0r30"),
  (["phlp", "psalterpahlavi"], "CCy0h73c6"),
  (["rjng", "rejang"], "BKJgB3b0"),
  (["runr", "runic"], "FV0Ca3a"),
  (["samr", "samaritan"], "CA0Bd2e"),
  (["saur", "saurashtra"], "BKE0C58b"),
  (["shrd", "sharada"], "CEM0Cv"),
  (["shaw", "shavian"], "CBCgBf"),
  (["sidd", "siddham"], "CFM0Bl2B5"),
  (["sgnw", "signwriting"], "DWA0Ubf41e"),
  (["sinh", "sinhala"], "DM121h3n181026304510176922CA-cj"),
  (["sogd", "sogdian"], "CDZgB9"),
  (["sora", "sorasompeng"], "CEGgo79"),
  (["soyo", "soyombo"], "CGSgCi"),
  (["sund", "sundanese"], "Gy0BvI07"),
  (["sylo", "sylotinagri"], "BKA0Bc"),
  (["syrc", "syriac"], "BY0d1Br22Iga"),
  (["tglg", "tagalog"], "FY0l90"),
  (["tagb", "tagbanwa"], "Fx0c1211"),
  (["tale", "taile"], "GKgt24"),
  (["lana", "taitham"], "GR0Bu1s2a696d"),
  (["tavt", "taiviet"], "BKU0C2o4"),
  (["takr", "takri"], "CFU0Bp69"),
  (["taml", "tamil"], "Cy2115321331101131323b4432132060ekCE+5Bhd0"),
  (["tnsa", "tangsa"], "CwTgCe19"),
  (["tang", "tangut"], "Cx-00vF-n8XvQ08"),
  (["telu", "telugu"], "DA0c121m1f281213711220232978"),
  (["thaa", "thaana"], "By0Bh"),
  (["thai"], "DQ1Bp5r"),
  (["tibt", "tibetan"], "DY0C71B34B61B31e1641"),
  (["tfng", "tifinagh"], "LJgBn71e0"),
  (["tirh", "tirhuta"], "CFE0C789"),
  (["toto"], "DYUgu"),
  (["ugar", "ugaritic"], "CAy0t10"),
  (["vaii", "vai"], "BJI0Jb"),
  (["vith", "vithkuqi"], "CBLga1e16111a1e1611"),
  (["wcho", "wancho"], "DYW0Bp50"),
  (["wara", "warangciti"], "CGF0Cic0"),
  (["yezi", "yezidi"], "CDU0B91221"),
  (["yiii", "yi"], "BIA0BEc3Bm"),
  (["zanb", "zanabazarsquare"], "CGQ0C7")]

/-- The names of each script with the code points that are used in it. -/
def extensions : List (List String × String) := [
  (["adlm", "adlam"], "BQv0B00DYVvCb4941"),
  (["ahom"], "CFY0q2e4m"),
  (["hluw", "anatolianhieroglyphs"], "CRA0S6"),
  (["arab", "arabic"],
    String.join [
      "BQ041Gm1B1CgBfHgu116C91sBySgDigNs2Bl70B0fDg41E6-3rCx4uDu2BXY031q111020191310106040101012",
      "1110201010101011102316131310191g52141gBk1"]),
  (["armn", "armenian"], "BJhB52Bh22BzM34"),
  (["avst", "avestan"], "CCY0Bl36"),
  (["bali", "balinese"], "GY0Cc3Be"),
  (["bamu", "bamum"], "BJV0CnBQI8Ro"),
  (["bass", "bassavah"], "CwWgt25"),
  (["batk", "batak"], "G+0Bj83"),
  (["beng", "bengali"], "CKh1h1q317212l1610332821238041142oEWh01021108080204022BC-p0"),
  (["bhks", "bhaiksuki"], "CHA081Bc1das"),
  (["bopo", "bopomofo"], "Xa1LIl2491ca32060G309BaDgvBTE51Iq4"),
  (["brah", "brahmi"], "CEA0Cd4B390"),
  (["brai", "braille"], "KA0Hv"),
  (["bugi", "buginese"], "GQ0r21BDzf0"),
  (["buhd", "buhid"], "FZl19j"),
  (["cans", "canadianaboriginal"], "FA0TvRgC5CANqf"),
  (["cari", "carian"], "CAV0Bg"),
  (["aghb", "caucasianalbanian"], "CBJgBjb0"),
  (["cakm", "chakma"], "CP69BSg9CAFmBk1h"),
  (["cham"], "BKQ0Bm9d2923"),
  (["cher", "cherokee"], "Ez0Cl25BFxiCf"),
  (["chrs", "chorasmian"], "CDzgr"),
  (["zyyy", "common"],
    String.join [
      "0C0q5qBe1e14n0v0O1B6542jDk0906010Tt0Gn0Q40BKs0Ml3BYi2CIib2B01Bk1a3a1ehB0BvB512251q1gB924",
      "UmpalyvI0Tj2v1D8Q0C21pMib4030d0d0l0Qhnv0Bhec3F195Cvv0GO0BvWI8pD62+g0e1UV49mk2b1i13Ej01vq",
      "5q5Dv616a4MicBjBcBTKjDjBsHlaB62Bt3g817t4BsGljcjcCmr6E7Ck1C6112021231b10161C01327161r1314",
      "10361Kj2J32BhFDhC3CcBsW2Bb4D3ce2e1e1B4aFdBop11dBb48n5Eq+n4g3c3Dm4Cu6b40fb4Bn896B78t21CeK",
      "jcd2c387Bd168d48787Ei1BmB59YBA70uCv"]),
  (["copt", "coptic", "qaac"], "-2dKEgDj56BVP0r"),
  (["xsux", "cuneiform"], "CIA0ypD6De14bG3"),
  (["cprt", "cypriot"], "CAI024Bc38BW05201Bb113020"),
  (["cpmn", "cyprominoan"], "CAI01LUeD2"),
  (["cyrl", "cyrillic"], "BA0JfFwg8F20Cc0Dv0D-7vC30z-sCvVye1BYQ0BtB10"),
  (["dsrt", "deseret"], "CBA0Cf"),
  (["deva", "devanagari"], "CI0Ci2BaEwgB611-m0BBZv9F6vyQ09"),
  (["diak", "divesakuru"], "CGI062027111t112b99"),
  (["dogr", "dogra"], "CL4bBHW09x+6Br"),
  (["dupl", "duployan"], "DPA0Da5c387927"),
  (["egyp", "egyptianhieroglyphs"], "CMA0BCl"),
  (["elba", "elbasan"], "CBI0B7"),
  (["elym", "elymaic"], "CD-0m"),
  (["ethi", "ethiopic"],
    "EQ0C8132610132B8132B0132610132e1Bo132C22v3pGP6m9616161616161616-J2525259616CPFh613111e"),
  (["geor", "georgian"], "EF0B510502BfCygBa22EC0B51050"),
  (["glag", "glagolitic"], "BE4020JxoCvP30+Bb0COMg61g261114"),
  (["goth", "gothic"], "CAZgq"),
  (["gran", "grantha"], "CKh1h1U0dEGs011u231-m0ByQf317212l1611141921222060562634DCr110"),
  (["grek", "greek"],
    String.join [
      "w2020Ba3122310401012101j1BuefGJ64Bi444Ck2Jul252B525271010101u2Bk1e1d251i2218J70BCRu0VOqC",
      "eh0BUCvC5"]),
  (["gujr", "gujarati"], "CKh1h1Ir218121l16111429121220f32b76BHJg9"),
  (["gong", "gunjalagondi"], "CL41CE-q5111B4111579"),
  (["guru", "gurmukhi"], "CKh1h1Er215412l16111111201441223073107gBHNp9"),
  (["hani", "han"],
    String.join [
      "LU0p1CocGlBb21c1c1c2068Fr0EkfB0B3BsB7BoBgfbBj0Cooa4D0u1GNvC0UPvBY07UPoLd2D9xb1Iq4yDs1c1Y",
      "xehHWu1DNeBJWvB0EBp6Gt2FU1eHJgDAvQtBP2Ewa5ECv"]),
  (["hang", "hangul"], "EI0HvHQ12491ce260G30BlCtDhuC1uzX1sU3Kz3cm4BgJS91Iq4Bqu35252522"),
  (["rohg", "hanifirohingya"], "BQc0e030B00Ej0CBRbB789"),
  (["hano", "hanunoo"], "FZ0m"),
  (["hatr", "hatran"], "CCH0i1154"),
  (["hebr", "hebrew"], "BMhBm8q45BzJ8p1410111119"),
  (["hira", "hiragana"], "MA12491cg510413Cl27Cq1BTK81Iq4a0Bd1BMD1Iui0t2QFd0"),
  (["armi", "imperialaramaic"], "CCC0l18"),
  (["zinh", "inherited", "qaai"],
    "Y0C1111sBPg1EKruXjBl1014Qc1G2vBXIgfgd+f0BTI2Bd2mR02h726u3YLwiHf"),
  (["phli", "inscriptionalpahlavi"], "CCx0i57"),
  (["prti", "inscriptionalparthian"], "CCw0l27"),
  (["java", "javanese"], "BKM0Cd1a41"),
  (["kthi", "kaithi"], "CL69BHW09wC6C2a0"),
  (["knda", "kannada"], "CKh1h1Yqc121m19142812137161132912D+s01070n010BCZr5"),
  (["kana", "katakana"], "MA12491cg51041Cr33CvHgfGgBe1CnBSXd1IqBuBMCg3161110Iv2Bi0e3"),
  (["kawi"], "CHY0g1B83r"),
  (["kali", "kayahli"], "BKI0Bf"),
  (["khar", "kharoshthi"], "CCQ031157121s224978"),
  (["kits", "khitansmallscript"], "Cx-40GYrOl"),
  (["khmr", "khmer"], "Fy0Ct2969P6v"),
  (["khoj", "khojki"], "CX69BHK09wO6h1Be"),
  (["sind", "khudawadi"], "CL41BHWa9wTmBq59"),
  (["laoo", "lao"], "DU1110141n101m2410161923"),
  (["latn", "latin"],
    String.join [
      "C1p6pBf0f05m1u1O0B74DucIl1BGa1Bz80DA4B56Bg535c1C5C1HvJf0C10d0gcCj0Bp160r0hB8CWnv+U07qD53",
      "Bv511014odJe0Q1Ba1813Tym6BAqp6pCB551B918BVw5u65"]),
  (["lepc", "lepcha"], "HA0Bn3e32"),
  (["limb", "limbu"], "CL50Dyqu1b4b403b"),
  (["lina", "lineara"], "CAI7BcBGcJm9la7"),
  (["linb", "linearb"], "CAA0b1p1i111e2dB2Dq524Bc38"),
  (["lisu"], "BJGgBf+Vg0"),
  (["lyci", "lycian"], "CAU0s"),
  (["lydi", "lydian"], "CCJ0p50"),
  (["mahj", "mahajani"], "CL4bBHW09wImB6"),
  (["maka", "makasar"], "CHX0o"),
  (["mlym", "malayalam"], "CKh1h1yqc121Bi12154f2pDwq0BCwl2"),
  (["mand", "mandaic"], "BS00Pvr20"),
  (["mani", "manichaean"], "BS00CBDvB64b"),
  (["marc", "marchen"], "CHDgv2l1d"),
  (["gonm", "masaramgondi"], "CL41CEyq6111Bb30111889"),
  (["medf", "medefaidrin"], "CxS0Cq"),
  (["mtei", "meeteimayek"], "BKX0mG9Bd29"),
  (["mend", "mendekikakui"], "DwA0G42f"),
  (["merc", "meroiticcursive"], "CCN0n4j2Bd"),
  (["mero", "meroitichieroglyphs"], "CCM0v"),
  (["plrd", "miao"], "CxY0Ca4Bo7g"),
  (["modi"], "BKBg9xO6C4b9"),
  (["mong", "mongolian"], "GA0p6Co7BaBy40BzRgc"),
  (["mroo", "mro"], "CwS0u1941"),
  (["mult", "multani"], "CT69CCAg610131e1a"),
  (["mymr", "myanmar"], "EA0EvBGEe0FhuD1v"),
  (["nbat", "nabataean"], "CCE0u88"),
  (["nagm", "nagmundari"], "DZGgB9"),
  (["nand", "nandinagari"], "CL41y09D-p08070BCZl5yLa72Bd2a"),
  (["talu", "newtailue"], "GM0Bb4p6a31"),
  (["newa"], "CFA0Cr14"),
  (["nkoo", "nko"], "BQc0e030N0Bq22BzJu1"),
  (["nshu", "nushu"], "Cx-10QMeMb"),
  (["hmnp", "nyiakengpuachuehmong"], "DYI0Bc3d2941"),
  (["ogam", "ogham"], "FU0s"),
  (["olck", "olchiki"], "HCgBf"),
  (["hung", "oldhungarian"], "CDE0BidBi75"),
  (["ital", "olditalic"], "CAY0B392"),
  (["narb", "oldnortharabian"], "CCU0v"),
  (["perm", "oldpermic"], "BE30B-WcBa"),
  (["xpeo", "oldpersian"], "CAz0B34d"),
  (["sogo", "oldsogdian"], "CDY0B7"),
  (["sarb", "oldsoutharabian"], "CCT0v"),
  (["orkh", "oldturkic"], "CDA0C8"),
  (["ougr", "olduyghur"], "BS00CBFh0BDtp"),
  (["orya", "oriya"], "CKh1h1Mr217212l1611142821227241142hEL20n0"),
  (["osge", "osage"], "CBFgB34B3"),
  (["osma", "osmanya"], "CBE0t29"),
  (["hmng", "pahawhhmong"], "CwY0C5a9161k5i"),
  (["palm", "palmyrene"], "CCD0v"),
  (["pauc", "paucinhau"], "CGW0Bo"),
  (["phag", "phagspa"], "GA2110BEBqBn"),
  (["phnx", "phoenician"], "CCI0r30"),
  (["phlp", "psalterpahlavi"], "BS00CBJvh73c6"),
  (["rjng", "rejang"], "BKJgB3b0"),
  (["runr", "runic"], "FV0Ca3a"),
  (["samr", "samaritan"], "CA0Bd2e"),
  (["saur", "saurashtra"], "BKE0C58b"),
  (["shrd", "sharada"], "CKh0Ey50102120BzEvCv"),
  (["shaw", "shavian"], "CBCgBf"),
  (["sidd", "siddham"], "CFM0Bl2B5"),
  (["sgnw", "signwriting"], "DWA0Ubf41e"),
  (["sinh", "sinhala"], "CL41BAr21h3n181026304510176922CA-cj"),
  (["sogd", "sogdian"], "BS00CCHfB9"),
  (["sora", "sorasompeng"], "CEGgo79"),
  (["soyo", "soyombo"], "CGSgCi"),
  (["sund", "sundanese"], "Gy0BvI07"),
  (["sylo", "sylotinagri"], "CL41E09BHQgBc"),
  (["syrc", "syriac"], "BQc0e120B00aaq0Efd1Br22IgaFMd010"),
  (["tglg", "tagalog"], "FY0l90l1"),
  (["tagb", "tagbanwa"], "FZl1B9c1211"),
  (["tale", "taile"], "EC09CI6t24"),
  (["lana", "taitham"], "GR0Bu1s2a696d"),
  (["tavt", "taiviet"], "BKU0C2o4"),
  (["takr", "takri"], "CL41BHWa9xS6Bp69"),
  (["taml", "tamil"], "CKh1h1Qs115321331101131323b4432132060ekEGv0BDAo0wQd010Bn1DE3Bhd0"),
  (["tnsa", "tangsa"], "CwTgCe19"),
  (["tang", "tangut"], "Cx-00vF-n8XvQ08"),
  (["telu", "telugu"], "CKh1h1Uqc121m1f281213711220232978ECq0n0"),
  (["thaa", "thaana"], "BQc0e120C09ImBhBzS00a0"),
  (["thai"], "DQ1Bp5r"),
  (["tibt", "tibetan"], "DY0C71B34B61B31e1641"),
  (["tfng", "tifinagh"], "LJgBn71e0"),
  (["tirh", "tirhuta"], "CKh1h1Eyc0BCZt9xC6C789"),
  (["toto"], "DYUgu"),
  (["ugar", "ugaritic"], "CAy0t10"),
  (["vaii", "vai"], "BJI0Jb"),
  (["vith", "vithkuqi"], "CBLga1e16111a1e1611"),
  (["wcho", "wancho"], "DYW0Bp50"),
  (["wara", "warangciti"], "CGF0Cic0"),
  (["yezi", "yezidi"], "BQc0e030C09CCAmB91221"),
  (["yiii", "yi"], "MA115927Gv0xY4BEc3BmWUq4"),
  (["zanb", "zanabazarsquare"], "CGQ0C7")]

/-- The code points of a script. -/
def find? (name : String) : Option CodeRanges :=
  (table.find? fun e => e.1.contains name).map fun e => CodeRanges.ofCompact e.2

/-- The code points that are used in a script. -/
def extended? (name : String) : Option CodeRanges :=
  (extensions.find? fun e => e.1.contains name).map fun e => CodeRanges.ofCompact e.2

end LanguageHost.Text.Script
