import LanguageHost.Text.CodeRanges

/-!
# Properties of code points

Sets of code points that have a name.  All names are in lower case and without separators.
-/

namespace LanguageHost.Text.Property

/-- The names of each property with its code points in compact notation. -/
def table : List (List String × String) := [
  (["ahex", "asciihexdigit"], "Bg975q5"),
  (["alpha", "alphabetic"],
    String.join [
      "C1p6pBf0a0405m1u1O94be47010Cm0Ba41123106012101j1Ci1Ea8F51B5206B8B7d101111108q43ta5Bn16eD",
      "5174742a220gBfdD4oB091405n2ijo7a5n15hB9ab366Cb1f124edi17212l16103337212110804114c1a04215",
      "412l16111111444121407310h5b218121l16111438121130f3l34217212l161114372121914114d0g1153213",
      "31101131323b4432123060B8c121m1f37121281122023s317121m1914371212816113d2cc121B82712121053",
      "74m5121h3n181026851017i1dBp5660Bj110141n101i12241060e3B00Bv71B34i4f1B3C3Bm1024gBva32B510",
      "502Ba1Kc132610132B8132B0132610132e1Bo132C2B5fgCl253Tb2g1p5Ca3a7jbkcjcc1211cBj2ie040C3Co7",
      "Ba5C5au1b48nt24bBb4pBmr4Bu2jBi0n1b2BhBj1e17BjB923aBb1aeBmm2aB3287Ba22B931511305FvB7dbIl2",
      "52B525271010101u2Bk1610321633254c5216Dk0d0gcD5040291034601010131a235440hB8ZdBjBYmH46331c",
      "B510502Bn70gm96161616161616161vBf0Ol2p874244Cl621Cp135Ba1CthvBgfQ0GNvC0VUcC3Bd2Ic3fa1kBe",
      "573DgB782D62Bv511014oj1B0oBjcC310Bc53012aB05B2ds3Bi1bf0gfa41Bm9dim3C41010o22f23b52525961",
      "61Ba1d6DqlKz3cm4BgII4Ld2D9B66c45b1c141011111DbB1LaiBv2BlB8bDk41E6B4p6pbCo35252522B3b1p1i",
      "111e2dB2DqC5BkIbs3BgBfvdt5Ba5t2B34714BaEtiB34B34B78Bjca1e16111a1e1611C3Jm9la7o51B918C552",
      "01Bb11302mam9uC1i11alapC6Bn61C031157121sBas3sB371rrBlalaidhDeC8BnBidBidB7KoB91131Cesa08l",
      "BahBekrm9C5Bb4aBo90donBih38B2309Bv1391a010B3h1B12063Bu610131e197Bon317212l16111437212130",
      "6056EsC11213k2uC12110FoBl26p5B2Bu1030BrBl20C7q2dl6FpBoD7Bvv72027111t112123Ct72Bd251011rB",
      "i29hC750iC8I781Bc1610Bht2l1dC96111Bb3011121021o5111B4111310K7m9g1B832Df0CfypD6DehG3CScD0",
      "fBBfh5DzpS6INpRo7uhCehtiBfg3vk5iVgBvE0Ca4Bo7gC0110c1eF-n8BGlBa8IX7316111J2f0t220e38MbCI4",
      "Da5c387940Fx1Ck1C6112021231b10161C01327161r131410361Kj2o1o1u1o1u1o1u1o1u1o17BZku65Gl61g2",
      "611145BtB10DgBca6g0K1tiBbP4rXk613111e1G4BrC33030BFk31q1110201913101060401010121110201010",
      "101011102316131310191g52141gTkp6p6pDTmBJWvB0EBp6Gt2FU1eHJgDAvQtBP2Ewa5ECv"]),
  (["bidic", "bidicontrol"], "BQs0GPh1q4Bn3"),
  (["bidim", "bidimirrored"],
    String.join [
      "B81i010s010t010Bd0f0DTu3Bwt1CMs1a1Bm1e1Fh0G033530313313101048501h539110172u2350912i51942",
      "14n2f83k171BBtdCa023111253523dMjl251d807530441124401221a521ci13201020135162o1b14311214Ba",
      "271B750103452403410I00Q333111e129Bb7Nb927BTRt551F21i010s010t0101111BVxn0Bp0Bp0Bp0Bp0"]),
  (["ci", "caseignorable"],
    String.join [
      "B7060b0B3010C7040104021PnFv41409110Hr6Gf050BhBc10111110Bc0b5aa10B30akg0D571913B1010uqCra",
      "Bqa4020onBb2Bc07167B9BpBn010474036a1d0f0Bq04380k1q021Bp041412230u130b1Bp0441140k1m510Bq0",
      "20138071b1u0Bt0c0Bi030Bn012521371b1t0Bq0206051k1s1Bp14380k1t0C807210Cq026b8D20289016C91r",
      "01010Bnd14115a1B390D63151121p142g3d02160f0Cu0T02zi2t1u1u1C0116802a3050Bd4Bj0C11B20Dm2419",
      "062Gr120Bq0161010276920B708uBh3Bg0141050B88c1B032112Bo0113012Bq721C05Ci21c16406031BiBud0",
      "B2D4Nt012b2d2d2d1c481a02024Bh41910d0gcBjB0Cyb1Dh2Dt0f0D0vBf0Ol0B433450Ct5Ct2xYm0BH25Ie0D",
      "231910s3Cg1eB1Ce0n2D7231803040p150En1qhd0B67paBe2Bg02321h0l1C252121c080B30b0Bj012215110r",
      "0e15110D4492Dp02040TZg0EjgRtf30cfB2020F907060b0B3010Bf0Bd1C30l2Q10H20El4BA551B918S621153",
      "B8240F51Rt3M31Cg2C6aBh3Dr0BmeB9021a2Bh3212040a0Bi2B4417Bu0c1Bk8a320Cv220116020Et037l1Bp1",
      "30B5634G372210n0Ck5104111He36111r1Cl72011Da0102510D522314I3811I011040Eg32140B09B85238095",
      "22Bec11Mm61510Cil261111Dq530111610C813010Kr1b1Bk45010FHdg6eNUq4Br693BAb0BvgC0111QAb31611",
      "DEu113ESsBd2mR029f26u3Ek2BzrBm4Bh80e0m41eBKg61g2611145BtB10F0dLg0Bt3Pr4-06Dd7CVf4YDA10uC",
      "vE0Hf"]),
  (["cased"],
    String.join [
      "C1p6pBf0a0405m1u1G2134Gf1B371u4D00Ba32123106012101j1Ci1Ea8F51B59B8CYnB510502Ba13V0Cl25CE",
      "287Ba22C0FvC0Il252B525271010101u2Bk1610321633254c5216Dk0d0gcD504029103460101013154023544",
      "0hv31ZhBjBYmH46331cB51050+IiBditE4D5331Bq511014o412ZlBa1d6CfTw06c4BA9p6pBF5CfD0B34B3Dka1",
      "e16111a1e1611O30221B918BG5BidBiCzdBvVL0BvZM0Ck1C6112021231b10161C01327161r131410361Kj2o1",
      "o1u1o1u1o1u1o1u1o17BZk91j65I5BtCEiC3B-cp6p6p"]),
  (["cwcf", "changeswhencasefolded"],
    String.join [
      "C1pCq0am17B00101010101010101010101010101010101010101010101010101010201010101010101011101",
      "0101010101010101010101010101010101010101011101010111011122311123111101011102011121011307",
      "1111110101010101010102010101010101010102110121010101010101010101010101010101010101010101",
      "0101010101010107111201310101010Hm0Ba0103080601210111g18m0c231101010101010101010101010112",
      "110112BiBg010101010101010101010101010101010901010101010101010101010101010101010101010101",
      "0101010101110101010101020101010101010101010101010101010101010101010101010101010101010101",
      "01010101010101010101010101010102B5Bg0CYoB51050Za5CE287Ba22K00101010101010101010101010101",
      "0101010101010101010101010101010101010101010101010101010101010101010101010101010101010101",
      "0101010101010101010101010101010105120101010101010101010101010101010101010101010101010101",
      "0101010101010101010101010101010101010101010109785a78785b010101087gBf22255225b3c45225J903",
      "160Bdfj0ZipBZgBfBg0122010101310208210101010101010101010101010101010101010101010101010101",
      "010101010101010101010101010101010101010101010801040+Kd0101010101010101010101010101010101",
      "01010101010j010101010101010101010101010E701010101010103010101010101010101010101010101010",
      "1010101010101010101010101010a01011101010104010201030101010101010101010141410101010101010",
      "1310605010s0xqCfTw06c4BA9pBG5B7E8B3Esa1e1611BXaBiC-dvVM0v+V0B1"]),
  (["cwcm", "changeswhencasemapped"],
    String.join [
      "C1p6pBq0am1u1Bv1Cj1c1d2d21104Cs1h6q111011311011142011207020113550a1F60Ba32132106012101j1",
      "Be3B0141E48F51B5aB6CYoB510502Ba22V0Cl25CE287Ba22Fp030g0DhEr201Dl252B525271010101u2Bk1610",
      "321633254c5216J903160r0hv31ZhBjBYmDg11117D57331cB51050+IiBdirE6d2Bt9e32241o1q5143r1ws0sC",
      "fTw06c4BA9p6pBF5CfD0B34B3Dka1e16111a1e1611BW3BidBiCzdBvVL0Bv+U0C3"]),
  (["cwl", "changeswhenlowercased"],
    String.join [
      "C1pD5m16B1010101010101010101010101010101010101010101010101010101020101010101010102010101",
      "0101010101010101010101010101010101010101110103110111223111231111010111020111210113071111",
      "1101010101010101020101010101010101021101210101010101010101010101010101010101010101010101",
      "010101010107111201310101010J10103080601210111g18B308010101010101010101010105020112BiBg01",
      "0101010101010101010101010101010901010101010101010101010101010101010101010101010101010111",
      "0101010101020101010101010101010101010101010101010101010101010101010101010101010101010101",
      "01010101010101010102B5Cw9B51050WiClCEqBa22K001010101010101010101010101010101010101010101",
      "0101010101010101010101010101010101010101010101010101010101010101010101010101010101010101",
      "0101010101010101090101010101010101010101010101010101010101010101010101010101010101010101",
      "0101010101010101010101010109785a78785b010101087o7878784b4b3c4b4J903160Bdfj0ZipBZgBfBg012",
      "2010101310208210101010101010101010101010101010101010101010101010101010101010101010101010",
      "101010101010101010101010801040+Kd010101010101010101010101010101010101010101010j010101010",
      "101010101010101010E701010101010103010101010101010101010101010101010101010101010101010101",
      "0101010a010111010101040102010301010101010101010101414101010101010101310605010s0VZbpBG5B7",
      "E8B3Esa1e1611BXaBiC-dvVM0v+V0B1"]),
  (["cwt", "changeswhentitlecased"],
    String.join [
      "D1pBq0B9n1710101010101010101010101010101010101010101010101010101010201010101010101110101",
      "0101010101010101010101010101010101010101020101220102030502031302010102040203010203010401",
      "1111010101010101010111010101010101010121010301010101010101010101010101010101010101030101",
      "01010101010108021104010101015111011311011142011207020113550a1F60Bb0103032i0rB21132101010",
      "101010101010101014102020BkBf101010101010101010101010101010101090101010101010101010101010",
      "1010101010101010101010101010201010101010111010101010101010101010101010101010101010101010",
      "10101010101010101010101010101010101010101010101010BhB6DTg5CE28Hg030g0Di01010101010101010",
      "1010101010101010101010101010101010101010101010101010101010101010101010101010101010101010",
      "1010101010101010101010101010101010101010101650101010101010101010101010101010101010101010",
      "101010101010101010101010101010101010101010101010101885a78785a7878d2787878411603211832187",
      "a211Km0B1f40wbpBw6Bf10311010106020a01010101010101010101010101010101010101010101010101010",
      "1010101010101010101010101010101010101010101010801040cB51050+Ij01010101010101010101010101",
      "0101010101010101010j010101010101010101010101010E7010101010101030101010101010101010101010",
      "101010101010101010101010101010101010a010201010101040401120101010101010101010b01010101010",
      "10104010605010s0ws0sCfTw06c4BB9pBGdB7E8B3Era1e1611BY3BiC+dvVM0v+V2B1"]),
  (["cwu", "changeswhenuppercased"],
    String.join [
      "D1pBq0B9n1710101010101010101010101010101010101010101010101010101010201010101010101110101",
      "0101010101010101010101010101010101010101020101220102030502031302010102040203010203010511",
      "1111010101010101011101010101010101011111030101010101010101010101010101010101010103010101",
      "010101010108021104010101015111011311011142011207020113550a1F60Bb0103032i0rB2113210101010",
      "1010101010101014102020BkBf10101010101010101010101010101010109010101010101010101010101010",
      "1010101010101010101010101020101010101011101010101010101010101010101010101010101010101010",
      "101010101010101010101010101010101010101010101010BhB6Cw8Ba22Xo5CE28Hg030g0Di0101010101010",
      "1010101010101010101010101010101010101010101010101010101010101010101010101010101010101010",
      "1010101010101010101010101010101010101010101010165010101010101010101010101010101010101010",
      "1010101010101010101010101010101010101010101010101010101885a78785a7878d2Bk114010321140332",
      "187a21140Kh0B1f40wbpBw6Bf10311010106020a010101010101010101010101010101010101010101010101",
      "010101010101010101010101010101010101010101010101010801040cB51050+Ij010101010101010101010",
      "101010101010101010101010j010101010101010101010101010E70101010101010301010101010101010101",
      "01010101010101010101010101010101010101010a010201010101040401120101010101010101010b010101",
      "0101010104010605010s0ws0sCfTw06c4BB9pBGdB7E8B3Era1e1611BY3BiC+dvVM0v+V2B1"]),
  (["dash"], "Bd0BKs0Bj0DS10BA50CA95Bt0B70f0M60DA4020v140s0Nu0j0Df0BTMg1B50a0F90Dyv0"),
  (["di", "defaultignorablecodepoint"],
    "Fd0V10Wc0Cw21BSj1Cl4B-r4q4BhfEHk0BTErfHf0F00Cf8BPF73FGf7YLU5D-v"),
  (["dep", "deprecated"], "K90BJ90CI3010CB91CG55Vp1xXGm0"),
  (["dia", "diacritic"],
    String.join [
      "Cu010C70604021PnEu1755h14091Ht4Gh0Bng1q101110E6741E614132C3qCraBqaB21Du7B99grBt0g033s0Ca",
      "0g0De0g0De0g0Bf2Bs0g070Dn0De0g0De0g0Dd1g0Ds0Ds510Db0d4Cb1r0101041C2211Bu0Dg011B8144p610a",
      "1W12zk1Fja90Kr2Jp720Bge2aD80f0B68Bm1Ea1C05Cio406022BiBuCpbB5aNt012b2d2d2d1DHg2Jt0Pq5D93C",
      "v0zLi0c110s1Ci1eB1D62Dd1Ga0rhBp3B40Cv0c0B40El2C13Bj0D4492E01TZg0Y1fIe010Bf0Bd1C30Xs0BEv5",
      "1B918Za1Rr5Ol2C6aBh3G00B90C81Do1Bu0Cc092D81Fi1Ch0g0o634Gd030Dr1Hr1Du0Dm1Dj0Id1I2140Es0Cj",
      "0i0Ch0N50I2011Ch0FVfeNUq4Br6BCogCg1P-u31611HY1Bd2mR02358726u3DU2BtG26Ln0Bt3BP06Dd212"]),
  (["emoji"],
    String.join [
      "B306059Df040Hyd0c0Go0m0Cq5f1Lf1c0F60pa42G70H71a090Bq314902021204020112030318250105bb1201",
      "110i021i5101131502141b15120511011k155132040202510201010603060a1f02040104210b1Bg290e0e0Lk",
      "1Of2j1Bj040BGq0c0Sp010DPLa0Ga0F01c1e029Cbp11n0k028l1FeB12Df21122Ci221I61Bub51n7127c02320",
      "41d120819052c28220104060306ClBgC557224930113029H3b40IrBe191FoDgc387Bd168d4878"]),
  (["ecomp", "emojicomponent"], "B306059H+j0Gl0BXJb0By+mpPr4BNg3YBTcCv"),
  (["emod", "emojimodifier"], "Dy-r4"),
  (["ebase", "emojimodifierbase"],
    String.join [
      "JQt0Gr0g3DTDn0Bs22022Dl12ali3042127010o0G9140l041Fe234Cj0g290b0Rv02087609922Bo0Bt11110h2",
      "1cH52Ba8"]),
  (["epres", "emojipresentation"],
    String.join [
      "IYq1Gd33020Q91l1BibBb0j0d081h1518050l0711040207041s0B30104210Bt2o0e0wr1Bj040DRFe0Ga0Fu02",
      "9Cbp10o0k02412l1FeB0c81C51lcBa44cg303C6101Fq2Bud31ni0q1d0CmCkBgC560322243b178H3b40IrBe19",
      "1FoDgc387Bd168d4878"]),
  (["extpict", "extendedpictographic"],
    String.join [
      "F9040Hyd0c0Go0m0Cq5f1Lf1c0Cv0C60pa42G70H71a090Bq3151b1DhaDl2a1010603060a1f02040104210b4B",
      "d290e0e0Lk1Of2j1Bj040BGq0c0Sp010DPL6Hvd2v0Bs5c1e029iBorea0k028139Nh5Jt8I9BgDvDkbClBac3Bo",
      "7a5B87uChcBe191NoI0-t"]),
  (["ext", "extender"],
    String.join [
      "Fn0Qo1xe0Np0wq0Xg0Dv0CK30Bo0T30Me0C40Ey90Bb4D71Ct2xYm0BPm0+20m0E90Dc0l1VDr0CAg1C+q0T82BG",
      "f0UF91BEs110yKo1CA62"]),
  (["grbase", "graphemebase"],
    String.join [
      "B0CuB1c1ShDg72546101j1Gv7F51B52Bh22Be01020209q45h9b01Bdlf1D48061204v201ttCob0eBa963n4090",
      "307e1o501a5uhB9BpBm10138312792s1117212l1610333011612110d1124n5015412l1611111142o31079221",
      "0c018121l16111433801130f14b708117212l16111430206121f1124hb015321331101131323b5011321230l",
      "k6217121m1f3033j2202149791a121m19143111112111h1114912ea121B8201152121142194p211h3n181026",
      "91667922cBf11b78cB5110141n1019119024109923B0n2q10101d1B3i05024Bh7151cB5Bc4060212o233f4c1",
      "1251e1B710502Lo132610132B8132B0132610132e1Bo132C25s3p6Cl252Us3Co7h309i229hec12fBj207711b",
      "839696a596Co742B1105C5au43224115703B924bBb4p6a3Bo213Bn10901185d9696dCmBf7014193q9a3v4120",
      "3Bn102210318Bf815e3Br7Ba2ab0d0731512205FvC0Il252B525271010101u2Bk1e1d251i22181a5n7Bgg12q",
      "1c3B0BvEb4UmpalBYj2v1Kn315Bc10502Bn71fm9616161616161616B1CtB2p1CocGlqb4B96f1Cl4D45Ba1Ct1",
      "CjcBe1yTc3Bm9KrkBe40av2Cf258Ga511014of12131o24496Bn8C3aboc1B58ob1bt6Bf11412f1a461o1B8612",
      "1b21710292v1Bi1031242010og27b5252596161Br4Dk1113396Kz3cm4BgII4Ld2D9B66c4501n141011111Dsg",
      "Ns2Bl70B0fg9mB21i13441E64Es2u352525223616d12b1p1i111e2dB2Dq524Bc3Cn1c30BfBcE3s3Bggq4B39t",
      "5B5at1B44dBaEt296B34B34B78Bjbb1e16111a1e1611C3Jm9la7o51B918C55201Bb11302m1C788Bgi115B03q",
      "50C0Bn4j2Bef3121sa8787BvB0B46b9Bl3s2q5p73c6CgC8BnBidBi7B9c9J6u1B93021CeB78lb8mh43B6rkm90",
      "1Blf64t1120cBg412113eo799B3509h8B212bBj99411f1jbh1r31102511Bv610131e1a6Be12d98117212l161",
      "114301013212220c6EsBn81301k1012uBf11601110202389F6Be1163202qB4Bi811023b96cjBa1011601169B",
      "mq51409mFpBe9020D4Cic72027111n141140131299C672B98313r0aB7614790613Bdd028dC879Hm81B5e015a",
      "s3vp07020Cb6111B5l09965111B441101079Jmi239e1B381101mCm0fBhdyqD6De14bG3CScD2dBBfh5DzpS6IN",
      "pRo7u194Cg196t70aBf7ea9161k5iVgCqD5Ca5BnbcC03c1eF-n8BGlBa8IX7316111J2f0t220e38MbCI4Da5c3",
      "8792020EVgDjBsHlaB62Br1033l17t4BslC130DqjcjcCm9oE7Ck1C6112021231b10161C01327161r13141036",
      "1Kj2J32RhBn3Bi71d16BDku65I5BtEiBca62941K0tiBb4950Ogr49X6613111e1G428BgC3704941YhC3CcBsG2",
      "31q1110201913101060401010121110201010101011102316131310191g52141gBk1IeBb4D3ce2e1e1B4aFdB",
      "osdBb4871e5Eq+n4g3c3Dm4Cu6b40fb4Bn896B78t21CeKjcd2c387Bd168d48787Ei1BmB59BA6BJWvB0EBp6Gt",
      "2FU1eHJgDAvQtBP2Ewa5ECv"]),
  (["grext", "graphemeextend"],
    String.join [
      "Y0DfIj6I7Bc10111110C8aBgkg0D56252113B30uqCraBq890o3181214Bb2Bs7Ban1vBn010474036a1t0Bq010",
      "238090a1q021Bp041412230u130b1Bp0441140k1m510Bq011138072a1u0Br010c090B8030Bn012521371b1t0",
      "Bq02020305171b1s1Bp110238090a1t0C8040221080Ch026c7D2028b6C91r01010Bnd14115a1B390D6315112",
      "1p142g3d02160f0Vv2zi2t1u1u1C0116802a90Bd210Dl1B20Dm2419062Gr120Bq0161010276920BguBh3Bg61",
      "050B88c1B032112Bo0113012Bq721Eo21c16406031G6BvQc0G3B0C-u2Ed0D0vRa5D91zOk319B01Cg1Ig03040",
      "p150En1qhd0B67paBe2Bg02321B70C352121c080Bf0Bj012215110Ba180He02040TZg0X1fgfLe1St0H20El4B",
      "U621153B8240F51Rt3M31Cg2C6aBh3Dr0BmeB9021a2Bh32170Bt2B4417Bu0c1Bk8a320Cv220116020Et037l1",
      "Bp11010m0e634G372210n0Ch02510201111Hb0236111r1Cl72011Da0102510D522314I3811Hl0a11040Eg321",
      "40B09B8523809522Bec11Mm61510Cil261111Dq530111610C813010Kr1b1Bk45010FHt06eNUq4Br6BAo0Bv3C",
      "h0TFo1ET1Bd2mQu012448726u3Ek2BzrBm4Bh80e0m41eBKg61g261114D40F06Ln0Bt3Ps3-06Dd6YFWlCvE0Hf"]),
  (["hex", "hexdigit"], "Bg975q5B-V9975q5"),
  (["idsb", "idsbinaryoperator"], "L-g127"),
  (["idst", "idstrinaryoperator"], "L-i1"),
  (["idc", "idcontinue"],
    String.join [
      "Bg97p401pBf0a010205m1u1O94be47010hDk11231064101j1Ci1Ea142F51B5206B88Bc101111108q43ta5C94",
      "D517291i20gBq2D4eBl40202Bdir4a5n159C91E0291i17212l1610332821238041142ba0102215412l161111",
      "11201441223073107fb218121l16111429121220f329961217212l1611142821227241142910g11532133110",
      "1131323b4432132060e9gc121m1f2812137112202329g317121m19142812137161132912cc121Bi121453742",
      "9a5121h3n181026304510176921dBp5e19B7110141n101m2410161923B00n169b01010491B34j1h1B390BpC9",
      "6Cd2B510502Ba1Kc132610132B8132B0132610132e1Bo132C22298efgCl253Tb2g1p5Ca3a7l9lbjcc1211cCj",
      "304129B121a6Co7Ba5C5au1b4baB724bBb4p6aB5r4Bu1s2a69d08d1fBhCc39h8cDjcBn893Bg287Ba22g21B65",
      "Ql252B525271010101u2Bk1610321633254c5216C21j0s0d0gcBjc403bh0402910256010101f235440hB8CTn",
      "H468cB510502Bn70fn96161616161616161vQ52pe14244Cl261Cp135Ba1CthvBgfQ0GNvC0VUcC3Bd2Ic3rkBf",
      "491DiB582D62Bv511014oBl40jBjcC5a96n301Bg2B3cs3C0ea6u1Bm9d296m3C8o22f24a5252596161Ba1d6Dq",
      "11296Kz3cm4BgII4Ld2D9B66c45b1c141011111DbB1LaiBv2BlB8b4fgf31o2B041E6j97p401pbCo35252522B",
      "3b1p1i111e2dB2DqC5BkE80E2s3Bgf0vvdt5Ba5t2B34714BaEt296B34B34B78Bjca1e16111a1e1611C3Jm9la",
      "7o51B918C55201Bb11302mam9uC1i11alapC6Bn61C031157121s2240B0s3sB371tpBlalaidhDeC8BnBidBidB",
      "789K6B91131Cbva08B0vlBakrm9C6vf9Br70do796Bk19438B3209C4431c10B3h1B463Bu610131e197Bq59631",
      "7212l1611141921222060562634EbCa5943uC51089F6Bl28n5B2C030b9B6Bo79Bmq2e4966FpBqD5C9l720271",
      "11t1128c9C672Bd2711rBu808C930iC8I781Bc18f9ot2l1dC96111Bb3011188965111B4111579Jmm9g1B834d",
      "9Cm0CfypD6DehG3CScD0fBBfglDzaS6INpRo7u196Ce196t24bBm93c99k5iVgBvE0Ca4Bo7gC0111b1eF-n8BGl",
      "Ba8IX7316111J2f0t220e38MbCI4Da5c387931ET1Bd2mQu4358726u3Ek2NrCk1C6112021231b10161C013271",
      "61r131410361Kj2o1o1u1o1u1o1u1o1u1o172BhQ0Bm4Bh80e0m41eBCgu65Gl61g2611145BtB10DgBc3d2940K",
      "1uhBpOmB9X6613111e1G4b6B9Cb49BF631q11102019131010604010101211102010101010111023161313101",
      "91g52141gDJk9BA6BJWvB0EBp6Gt2FU1eHJgDAvQtBP2Ewa5ECvVXKgHf"]),
  (["ids", "idstart"],
    String.join [
      "C1p6pBf0a0405m1u1O94be47010E141123106012101j1Ci1Ea8F51B5206B8C7q43BdBaB311D210f171a220g0",
      "1ttCob0oB091405l409030no7a5n15hB9BqBl30i079ff47212l16103330g0d112e1a085412l16111111v310j",
      "2g8121l16111430i0f1n0b7212l16111430u112f0h015321331101131323bm0Bk7121m1f30q22021u047121m",
      "191430v111f1h8121B820g05282o55h3n181026BqBf11c6Bq110141n101911902410l3B00Bv71B3r4DjBak0g",
      "5433031724cc0hB510502Ba1Kc132610132B8132B0132610132e1Bo132C2B5fgCl253Tb2g1p5Ca3a7hdiehec",
      "12fBjB3040C3Co7B8105C5auBht24bBb4pBmm9BkCi0CtBeh7Bmtd1aBbqB3B92aB3287Ba22B931511305FvC0I",
      "l252B525271010101u2Bk1610321633254c5216Dk0d0gcD50402910256010101f235440hB8CTnH46331cB510",
      "502Bn70gm9616161616161616R62p874244Cl441Cp135Ba1CthvBgfQ0GNvC0VUcC3Bd2Ic3fa1kBegu2CfB782",
      "D62Bv511014of12131mtBjeBhBu53011bramps7Bes0g419a41B8n217km303Bh1031242010o22a72c52525961",
      "61Ba1d6DitKz3cm4BgII4Ld2D9B66c450191c141011111DbB1LaiBv2BlB8bDk41E6B4p6pbCo35252522B3b1p",
      "1i111e2dB2DqC5BkIbs3BgBfvdt5B5at2B34714BaEtiB34B34B78Bjca1e16111a1e1611C3Jm9la7o51B918C5",
      "5201Bb11302mam9uC1i11alapC6Bn61C00f3121sBas3sB371rrBlalaidhDeC8BnBidBidB3KsB961Cesa08lBa",
      "hBekrmcBkBp120dBcB0oqB3t0208B230cBfe3l010B3h1oj1Bv610131e197BeB67212l16111430i0c4EuBki3k",
      "2uBfk110FoBeB93B4Bfk0BrBad0C7qB56FpBbDkBvv72027111nf010Cu72B6g010s0aB770l0bBdj0iC8I781B4",
      "h0BhtDg6111B5l0p5111ve0K7if01c1B1Ds0CfypD6DehG3CScD0fBBfh5DzpS6INpRo7uhCehtiBfg3vk5iVgBv",
      "E0Ca50C2cC0110sF-n8BGlBa8IX7316111J2f0t220e38MbCI4Da5c3879Fx6Ck1C6112021231b10161C013271",
      "61r131410361Kj2o1o1u1o1u1o1u1o1u1o17BZku65I5BtEiBca6g0K1tiBbP4rXk613111e1G4BrC370BFk31q1",
      "110201913101060401010121110201010101011102316131310191g52141gEK4BJWvB0EBp6Gt2FU1eHJgDAvQ",
      "tBP2Ewa5ECv"]),
  (["ideo", "ideographic"],
    "MA61p8e2+5GNvC0UPvWI0Ld2D9zIa0rF-n8BGlBa8JD7MbTI4BJWvB0EBp6Gt2FU1eHJgDAvQtBP2Ewa5ECv"),
  (["joinc", "joincontrol"], "IAc1"),
  (["loe", "logicalorderexception"], "DS04Dr4CXg220BEHq12011"),
  (["lower", "lowercase"],
    String.join [
      "D1pBf0a040B4n171010101010101010101010101010101010101010101010101010101110101010101010111",
      "0101010101010101010101010101010101010101010102010122010203140203220201010201110203010212",
      "2602020101010101010101110101010101010101120103010101010101010101010101010101010101010101",
      "01010101010101016202110401010101C41B371u4D00Bb0103023i0rB2113210101010101010101010101410",
      "2021BjBf10101010101010101010101010101010109010101010101010101010101010101010101010101010",
      "1010101020101010101011101010101010101010101010101010101010101010101010101010101010101010",
      "101010101010101010101010101010BgB8Cw7Ba13Xo5CE28DnFvC10101010101010101010101010101010101",
      "0101010101010101010101010101010101010101010101010101010101010101010101010101010101010101",
      "0101010101010101010101010181010101010101010101010101010101010101010101010101010101010101",
      "010101010101010101010101010101010101885a78785a7878d2787878411603211832187a211Dp0d0gcDd03",
      "130r04040218340B1f40wbpBw6Bf103110101040111730101010101010101010101010101010101010101010",
      "10101010101010101010101010101010101010101010101010101011701040cB51050+Ij0101010101010101",
      "01010101010101010101010101010j010101010101010101010101012E501010101010121010101010101010",
      "1010101010101010101010101010101010101010101019101020101010104010201210101010101010101010",
      "50501010101010101040106010101010o21012ZlBa1d6CfTw06c4BB9pBGdB7E8B3Era1e1611O30221B918BI5",
      "BiC+dvVM0vZMqpq61hqpq310161aqpqpqpqpqpqpqpqpqrso15qo15qo15qo15qo1510BZk91j65I5BtCFkB1"]),
  (["math"],
    String.join [
      "Bb0g2v0t010Bd040B50v0Wo220q122Qf2GQd0r2b030d0e3l4b4C1c403144i04029102560312112153d10C4n1",
      "511414v1061eIb83k1Cq0uq10o0b6Nt1c945412134e01025b751Bp010t392KgBvI0PvBgk25BT+s0Zn510F20g",
      "2t010t010E3063BVAjCk1C6112021231b10161C01327161r131410361Kj2J32BhFQ031q11102019131010604",
      "01010121110201010101011102316131310191g52141gBk1"]),
  (["nchar", "noncharactercodepoint"],
    "B-OgvQe1B--u1B--u1B--u1B--u1B--u1B--u1B--u1B--u1B--u1B--u1B--u1B--u1B--u1B--u1B--u1B--u1"),
  (["patsyn", "patternsyntax"],
    "B1ea6q310q3B2610111011404030n0v0HYon8e2i19JhWfF0TluBDbQ0DvM124of0BTId1I51"),
  (["patws", "patternwhitespace"], "94i0D40Hy81o1"),
  (["pcm", "prependedconcatenationmark"], "BQ05Gn0Bh0M01Cg0CB+q0f0"),
  (["qmark", "quotationmark"], "B2040E30f0Hws7p1DQ70O93d2BTR13Ft040Cq1"),
  (["radical"], "LU0p1CocGl"),
  (["ri", "regionalindicator"], "DyP6p"),
  (["sterm", "sentenceterminal"],
    String.join [
      "B10c0g0BK90Ej2Fk0Bb2Hm0Bt01031J51BX41Ym041Y50G61Gc050Jq1L23Fe121t1Fs1C11zs192DP40d0m1Nd0",
      "zHs0Ie1H3030Lu1Cm1Cv0Eo1Ej2Eg1Hp0UT6031F90c0g0C10CXk1BHt4Bc3Ft1Dl3Dv2E1160g1Co111Dc0N11L",
      "l15eD91Hp2Q5010Hr1Cn1N41Vk1Ca1SZ91E50C11b0wj0TQ60HP80"]),
  (["sd", "softdotted"],
    String.join [
      "D91G40Ip0u0Bk0k0K00D2010GI90Bj0d030E40Et0N50Gm1CZi0DJz51Bi1Bi1Bi1Bi1Bi1Bi1Bi1Bi1Bi1Bi1Bi",
      "1Bi1CE60Jh1q0"]),
  (["term", "terminalpunctuation"],
    String.join [
      "B10a010b130Zu080Q10Bp0C80e012Fk0Bba10Hb1Bmev0I51BHk1Fc045Jn1Yl7Y50Ds2C71Et230B7321Jq1L23",
      "Fe112t1Fs4Bu1zs192DP40d040a01131Nc1zHr1Id2H34Lu1Cm1Cv0En2Ej2Dv0g1Hp0UT4213F90a010b130C10",
      "20BBq0Bg0BE60G70Jm1Eo5C45Cp3zo4Bc3Ft6Dg3Dv2E1160g1Co4Dc0N12c1L633eD91Hp2Q5010Hr1Cn141Mu2",
      "Bd0U51Ca1BJb4RPp1E50C12a0wi1TQ60HP73"]),
  (["uideo", "unifiedideograph"], "NA0GNvC0UPvWQe11011a0101122CBOmBJWvB0EBp6Gt2FU1eHJgFAvEwa5ECv"),
  (["upper", "uppercase"],
    String.join [
      "C1pD5m16B1010101010101010101010101010101010101010101010101010101020101010101010102010101",
      "0101010101010101010101010101010101010101110103110111223111231111010111020111210113070202",
      "0201010101010101020101010101010101020201210101010101010101010101010101010101010101010101",
      "010101010107111201310101010J10103080601210111g18B30223010101010101010101010105020112BiBg",
      "0101010101010101010101010101010109010101010101010101010101010101010101010101010101010101",
      "1101010101010201010101010101010101010101010101010101010101010101010101010101010101010101",
      "0101010101010101010102B5Cw9B51050WiClCEqBa22K0010101010101010101010101010101010101010101",
      "0101010101010101010101010101010101010101010101010101010101010101010101010101010101010101",
      "0101010101010101010901010101010101010101010101010101010101010101010101010101010101010101",
      "010101010101010101010101010109785a78785b010101087C83c3c3c4b3I6040322220346010101323a150q",
      "fj0ZipBZgBfBg012201010131020821010101010101010101010101010101010101010101010101010101010",
      "1010101010101010101010101010101010101010801040+Kd010101010101010101010101010101010101010",
      "101010j010101010101010101010101010E70101010101010301010101010101010101010101010101010101",
      "01010101010101010101010a0101110101010401020103010101010101010101014141010101010101013106",
      "05010s0VZbpBG5B7E8B3Esa1e1611BXaBiC-dvVM0vZN0pqpqpq01120212317qpq1132716r113141036rpqpqp",
      "qpqpqpuoB1oB1oB1oB1oB10EJlB1CAep6p6p"]),
  (["vs", "variationselector"], "GAb210BZPgfwAXgHf"),
  (["wspace", "whitespace", "space"], "94i0D40q0FOv0CLvat150Bf0Dz00"),
  (["xidc", "xidcontinue"],
    String.join [
      "Bg97p401pBf0a010205m1u1O94be47010hDk11321064101j1Ci1Ea142F51B5206B88Bc101111108q43ta5C94",
      "D517291i20gBq2D4eBl40202Bdir4a5n159C91E0291i17212l1610332821238041142ba0102215412l161111",
      "11201441223073107fb218121l16111429121220f329961217212l1611142821227241142910g11532133110",
      "1131323b4432132060e9gc121m1f2812137112202329g317121m19142812137161132912cc121Bi121453742",
      "9a5121h3n181026304510176921dBp5e19B7110141n101m2410161923B00n169b01010491B34j1h1B390BpC9",
      "6Cd2B510502Ba1Kc132610132B8132B0132610132e1Bo132C22298efgCl253Tb2g1p5Ca3a7l9lbjcc1211cCj",
      "304129B121a6Co7Ba5C5au1b4baB724bBb4p6aB5r4Bu1s2a69d08d1fBhCc39h8cDjcBn893Bg287Ba22g21B65",
      "Ql252B525271010101u2Bk1610321633254c5216C21j0s0d0gcBjc403bh0402910256010101f235440hB8CTn",
      "H468cB510502Bn70fn96161616161616161vQ52pe14244Cl21221Cp135Ba1CthvBgfQ0GNvC0VUcC3Bd2Ic3rk",
      "Bf491DiB582D62Bv511014oBl40jBjcC5a96n301Bg2B3cs3C0ea6u1Bm9d296m3C8o22f24a5252596161Ba1d6",
      "Dq11296Kz3cm4BgII4Ld2D9B66c45b1c141011111DbB1Ea6GpiBv2BlB896fgf31o2B1010301010101Dtj97p4",
      "01pbCo35252522B3b1p1i111e2dB2DqC5BkE80E2s3Bgf0vvdt5Ba5t2B34714BaEt296B34B34B78Bjca1e1611",
      "1a1e1611C3Jm9la7o51B918C55201Bb11302mam9uC1i11alapC6Bn61C031157121s2240B0s3sB371tpBlalai",
      "dhDeC8BnBidBidB789K6B91131Cbva08B0vlBakrm9C6vf9Br70do796Bk19438B3209C4431c10B3h1B463Bu61",
      "0131e197Bq596317212l1611141921222060562634EbCa5943uC51089F6Bl28n5B2C030b9B6Bo79Bmq2e4966",
      "FpBqD5C9l72027111t1128c9C672Bd2711rBu808C930iC8I781Bc18f9ot2l1dC96111Bb3011188965111B411",
      "1579Jmm9g1B834d9Cm0CfypD6DehG3CScD0fBBfglDzaS6INpRo7u196Ce196t24bBm93c99k5iVgBvE0Ca4Bo7g",
      "C0111b1eF-n8BGlBa8IX7316111J2f0t220e38MbCI4Da5c387931ET1Bd2mQu4358726u3Ek2NrCk1C61120212",
      "31b10161C01327161r131410361Kj2o1o1u1o1u1o1u1o1u1o172BhQ0Bm4Bh80e0m41eBCgu65Gl61g2611145B",
      "tB10DgBc3d2940K1uhBpOmB9X6613111e1G4b6B9Cb49BF631q11102019131010604010101211102010101010",
      "11102316131310191g52141gDJk9BA6BJWvB0EBp6Gt2FU1eHJgDAvQtBP2Ewa5ECvVXKgHf"]),
  (["xids", "xidstart"],
    String.join [
      "C1p6pBf0a0405m1u1O94be47010E141132106012101j1Ci1Ea8F51B5206B8C7q43BdBaB311D210f171a220g0",
      "1ttCob0oB091405l409030no7a5n15hB9BqBl30i079ff47212l16103330g0d112e1a085412l16111111v310j",
      "2g8121l16111430i0f1n0b7212l16111430u112f0h015321331101131323bm0Bk7121m1f30q22021u047121m",
      "191430v111f1h8121B820g05282o55h3n181026BqBf10d6Bq110141n101910a02410l3B00Bv71B3r4DjBak0g",
      "5433031724cc0hB510502Ba1Kc132610132B8132B0132610132e1Bo132C2B5fgCl253Tb2g1p5Ca3a7hdiehec",
      "12fBjB3040C3Co7B8105C5auBht24bBb4pBmm9BkCi0CtBeh7Bmtd1aBbqB3B92aB3287Ba22B931511305FvC0I",
      "l252B525271010101u2Bk1610321633254c5216Dk0d0gcD50402910256010101f235440hB8CTnH46331cB510",
      "502Bn70gm9616161616161616R62p874244Cl621Cp135Ba1CthvBgfQ0GNvC0VUcC3Bd2Ic3fa1kBegu2CfB782",
      "D62Bv511014of12131mtBjeBhBu53011bramps7Bes0g419a41B8n217km303Bh1031242010o22a72c52525961",
      "61Ba1d6DitKz3cm4BgII4Ld2D9B66c450191c141011111DbB1Ea6GpiBv2BlB89Dn010301010101DtB4p6pbBn",
      "2u35252522B3b1p1i111e2dB2DqC5BkIbs3BgBfvdt5B5at2B34714BaEtiB34B34B78Bjca1e16111a1e1611C3",
      "Jm9la7o51B918C55201Bb11302mam9uC1i11alapC6Bn61C00f3121sBas3sB371rrBlalaidhDeC8BnBidBidB3",
      "KsB961Cesa08lBahBekrmcBkBp120dBcB0oqB3t0208B230cBfe3l010B3h1oj1Bv610131e197BeB67212l1611",
      "1430i0c4EuBki3k2uBfk110FoBeB93B4Bfk0BrBad0C7qB56FpBbDkBvv72027111nf010Cu72B6g010s0aB770l",
      "0bBdj0iC8I781B4h0BhtDg6111B5l0p5111ve0K7if01c1B1Ds0CfypD6DehG3CScD0fBBfh5DzpS6INpRo7uhCe",
      "htiBfg3vk5iVgBvE0Ca50C2cC0110sF-n8BGlBa8IX7316111J2f0t220e38MbCI4Da5c3879Fx6Ck1C61120212",
      "31b10161C01327161r131410361Kj2o1o1u1o1u1o1u1o1u1o17BZku65I5BtEiBca6g0K1tiBbP4rXk613111e1",
      "G4BrC370BFk31q1110201913101060401010121110201010101011102316131310191g52141gEK4BJWvB0EBp",
      "6Gt2FU1eHJgDAvQtBP2Ewa5ECv"])]

/-- The code points with a property. -/
def find? (name : String) : Option CodeRanges :=
  (table.find? fun e => e.1.contains name).map fun e => CodeRanges.ofCompact e.2

/-- The characters of words, in compact notation. -/
def wordTable : String :=
  String.join [
    "Bg97p401pBf0a0405m1u1O94be47010hDk1123106012101j1Ci1Ea1Fc1B5206B88Bc101111108q43ta5C94D517",
    "291i20gBq2D4eBl40202Bdir4a5n159C91E0291i17212l1610332821238041142ba0102215412l161111112014",
    "41223073107fb218121l16111429121220f329961217212l1611142821227241142910g115321331101131323b",
    "4432132060e9gc121m1f2812137112202329g317121m19142812137161132912cc121Bi1214537429a5121h3n1",
    "81026304510176921dBp5e19B7110141n101m2410161923B00n169b01010491B34j1h1B390BpC96Cd2B510502B",
    "a1Kc132610132B8132B0132610132e1Bo132C222B0fgCl253Tb2g1p5Ca3a7l9lbjcc1211cCj304129B121a6Co7",
    "Ba5C5au1b4baB724bBb4p69B6r4Bu1s2a69d08uBhCc39h8cDjcBn893Bg287Ba22g21B65Ql252B525271010101u",
    "2Bk1610321633254c5216f1Bh1j0s0d0gcBjB0h040291034601010131a235440hB8ZdBjBYmH468cB510502Bn70",
    "fn96161616161616161vBf0Ol2pe14244Cl21221Cp135Ba1CthvBgfQ0GNvC0VUcC3Bd2Ic3rkBi191DiB582D62B",
    "v511014oBl40jBjcC5a96n301Bg2B3cs3C0ea6u1Bm9d296m3C8o22f24a5252596161Ba1d6Dq11296Kz3cm4BgII",
    "4Ld2D9B66c45b1c141011111DbB1LaiBv2BlB8b4fgf31o2B041E6j97p401pbCo35252522B3b1p1i111e2dB2DqC",
    "5BkE80E2s3Bgf0vvdt5Ba5t2B34714BaEt296B34B34B78Bjca1e16111a1e1611C3Jm9la7o51B918C55201Bb113",
    "02mam9uC1i11alapC6Bn61C031157121s2240B0s3sB371tpBlalaidhDeC8BnBidBidB789K6B91131Cbva08B0vl",
    "Bakrm9C6vf9Br70do796Bk19438B3209C4431c10B3h1B463Bu610131e197Bq596317212l161114192122206056",
    "2634EbCa5943uC51089F6Bl28n5B2C030b9B6Bo79Bmq2e4966FpBqD5C9l72027111t1128c9C672Bd2711rBu808",
    "C930iC8I781Bc18f9ot2l1dC96111Bb3011188965111B4111579Jmm9g1B834d9Cm0CfypD6DehG3CScD0fBBfglD",
    "zaS6INpRo7u196Ce196t24bBm93c99k5iVgBvE0Ca4Bo7gC0111b1eF-n8BGlBa8IX7316111J2f0t220e38MbCI4D",
    "a5c387931ET1Bd2mQu4358726u3Ek2NrCk1C6112021231b10161C01327161r131410361Kj2o1o1u1o1u1o1u1o1",
    "u1o172BhQ0Bm4Bh80e0m41eBCgu65Gl61g2611145BtB10DgBc3d2940K1uhBpOmB9X6613111e1G4b6B9Cb49BF63",
    "1q1110201913101060401010121110201010101011102316131310191g52141gTkp6p6pCT69BA6BJWvB0EBp6Gt",
    "2FU1eHJgDAvQtBP2Ewa5ECvVXKgHf"]

/-- The characters of words: letters, marks, digits, joining punctuation and joiners. -/
def word : CodeRanges := CodeRanges.ofCompact wordTable

/-- The characters with the property `White_Space`. -/
def space : CodeRanges := (find? "whitespace").getD []

/-- The letters and what behaves like letters. -/
def alphabetic : CodeRanges := (find? "alphabetic").getD []

end LanguageHost.Text.Property
