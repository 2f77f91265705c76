import LanguageHost.Text.CodeRanges

/-!
# Breaks

What a code point is to the breaks between characters as people count them, between words and
between sentences.  All names are in lower case and without separators.
-/

namespace LanguageHost.Text.Segment

/-- The parts of a character as people count them, with their code points in compact notation. -/
def graphemeTable : List (List String × String) := [
  (["cn", "control"], "09111hCvB0d0BLe0EPh0B-s021o6BhfBXUf0HgbNBkfBCD03FGf7YLU5vD0DvHgDQf"),
  (["cr"], "d0"),
  (["ex", "extend"],
    String.join [
      "Y0DfIj6I7Bc10111110C8aBgkg0D56252113B30uqCraBq890o3181214Bb2Bs7Ban1vBn010474036a1t0Bq010",
      "238090a1q021Bp041412230u130b1Bp0441140k1m510Bq011138072a1u0Br010c090B8030Bn012521371b1t0",
      "Bq02020305171b1s1Bp110238090a1t0C8040221080Ch026c7D2028b6C91r01010Bnd14115a1B390D6315112",
      "1p142g3d02160f0Vv2zi2t1u1u1C0116802a90Bd210Dl1B20Dm2419062Gr120Bq0161010276920BguBh3Bg61",
      "050B88c1B032112Bo0113012Bq721Eo21c16406031G6BvQc0G3B0C-u2Ed0D0vRa5D91zOk319B01Cg1Ig03040",
      "p150En1qhd0B67paBe2Bg02321B70C352121c080Bf0Bj012215110Ba180He02040TZg0X1fgfLe1St0H20El4B",
      "U621153B8240F51Rt3M31Cg2C6aBh3Dr0BmeB9021a2Bh32170Bt2B4417Bu0c1Bk8a320Cv220116020Et037l1",
      "Bp11010m0e634G372210n0Ch02510201111Hb0236111r1Cl72011Da0102510D522314I3811Hl0a11040Eg321",
      "40B09B8523809522Bec11Mm61510Cil261111Dq530111610C813010Kr1b1Bk45010FHt06eNUq4Br6BAo0Bv3C",
      "h0TFo1ET1Bd2mQu012448726u3Ek2BzrBm4Bh80e0m41eBKg61g261114D40F06Ln0Bt3Ps3-06Dd6CVg4YDB0Cv",
      "E0Hf"]),
  (["l"], "EI0CvBGA0s"),
  (["lf"], "a0"),
  (["lv"],
    String.join [
      "BLA00r0r0r0r0r0r0r0r0r0r0r0r0r0r0r0r0r0r0r0r0r0r0r0r0r0r0r0r0r0r0r0r0r0r0r0r0r0r0r0r0r0r",
      "0r0r0r0r0r0r0r0r0r0r0r0r0r0r0r0r0r0r0r0r0r0r0r0r0r0r0r0r0r0r0r0r0r0r0r0r0r0r0r0r0r0r0r0r",
      "0r0r0r0r0r0r0r0r0r0r0r0r0r0r0r0r0r0r0r0r0r0r0r0r0r0r0r0r0r0r0r0r0r0r0r0r0r0r0r0r0r0r0r0r",
      "0r0r0r0r0r0r0r0r0r0r0r0r0r0r0r0r0r0r0r0r0r0r0r0r0r0r0r0r0r0r0r0r0r0r0r0r0r0r0r0r0r0r0r0r",
      "0r0r0r0r0r0r0r0r0r0r0r0r0r0r0r0r0r0r0r0r0r0r0r0r0r0r0r0r0r0r0r0r0r0r0r0r0r0r0r0r0r0r0r0r",
      "0r0r0r0r0r0r0r0r0r0r0r0r0r0r0r0r0r0r0r0r0r0r0r0r0r0r0r0r0r0r0r0r0r0r0r0r0r0r0r0r0r0r0r0r",
      "0r0r0r0r0r0r0r0r0r0r0r0r0r0r0r0r0r0r0r0r0r0r0r0r0r0r0r0r0r0r0r0r0r0r0r0r0r0r0r0r0r0r0r0r",
      "0r0r0r0r0r0r0r0r0r0r0r0r0r0r0r0r0r0r0r0r0r0r0r0r0r0r0r0r0r0r0r0r0r0r0r0r0r0r0r0r0r0r0r0r",
      "0r0r0r0r0r0r0r0r0r0r0r0r0r0r0r0r0r0r0r0r0r0r0r0r0r0r0r0r0r0r0r0r0r0r0r0r0r0r0r0r0r0r0r0r",
      "0r0r0r0r0"]),
  (["lvt"],
    String.join [
      "BLA1q1q1q1q1q1q1q1q1q1q1q1q1q1q1q1q1q1q1q1q1q1q1q1q1q1q1q1q1q1q1q1q1q1q1q1q1q1q1q1q1q1q1",
      "q1q1q1q1q1q1q1q1q1q1q1q1q1q1q1q1q1q1q1q1q1q1q1q1q1q1q1q1q1q1q1q1q1q1q1q1q1q1q1q1q1q1q1q1",
      "q1q1q1q1q1q1q1q1q1q1q1q1q1q1q1q1q1q1q1q1q1q1q1q1q1q1q1q1q1q1q1q1q1q1q1q1q1q1q1q1q1q1q1q1",
      "q1q1q1q1q1q1q1q1q1q1q1q1q1q1q1q1q1q1q1q1q1q1q1q1q1q1q1q1q1q1q1q1q1q1q1q1q1q1q1q1q1q1q1q1",
      "q1q1q1q1q1q1q1q1q1q1q1q1q1q1q1q1q1q1q1q1q1q1q1q1q1q1q1q1q1q1q1q1q1q1q1q1q1q1q1q1q1q1q1q1",
      "q1q1q1q1q1q1q1q1q1q1q1q1q1q1q1q1q1q1q1q1q1q1q1q1q1q1q1q1q1q1q1q1q1q1q1q1q1q1q1q1q1q1q1q1",
      "q1q1q1q1q1q1q1q1q1q1q1q1q1q1q1q1q1q1q1q1q1q1q1q1q1q1q1q1q1q1q1q1q1q1q1q1q1q1q1q1q1q1q1q1",
      "q1q1q1q1q1q1q1q1q1q1q1q1q1q1q1q1q1q1q1q1q1q1q1q1q1q1q1q1q1q1q1q1q1q1q1q1q1q1q1q1q1q1q1q1",
      "q1q1q1q1q1q1q1q1q1q1q1q1q1q1q1q1q1q1q1q1q1q1q1q1q1q1q1q1q1q1q1q1q1q1q1q1q1q1q1q1q1q1q1q1",
      "q1q1q1q1q"]),
  (["pp", "prepend"], "BQ05Gn0Bh0M01Cg0BDb0CAxe0f0Hk1Bxr010Ho0C95Vs0Nr0"),
  (["ri", "regionalindicator"], "DyP6p"),
  (["sm", "spacingmark"],
    String.join [
      "CI30Bn0228311Bi1Br16121Bm0Bq2C20Bq28011Bl1Bs06121Di0113212Bk2Bt3Bt1Bq011112111B70e1Br152",
      "12Bl1Cc166j1Bv0Dv0Ea1Bv0Fh091p1Bc0BUg0u0E107711Kq3224115H01Bq010l5Eh0Bm01411Bt0u04120Bs0",
      "221031Bg781Fb0l0BCZb120Co1BifEe1Bf0Bg14122De121o0Et02150Hd1111110ZAj010Dv0Bd241Dj0o1Br0B",
      "g291d0Ct23110Fa2v1Br0132122k1Gh28130Db160111020He16320Dh28110Dd01160Df0I5290Ho411402010E",
      "e28340Ck0t1Bu0Mn0e0Da07020Gl44110Ku1c0Bg18110UAfBmD81YLk060"]),
  (["t"], "EN8CnBRObBg"),
  (["v"], "EL0C7BRQ8m"),
  (["zwj"], "IAd0")]

/-- The parts of words, with their code points in compact notation. -/
def wordTable : List (List String × String) := [
  (["le", "aletter"],
    String.join [
      "C1p6pBf0a0405m1u1Ov6B1Dg41123106012101j1Ci1Ea8F51B523101B810D80BcBaB311D210f171a220g01tt",
      "Cob0oB091405l409030no7a5n15hB9BqBl30i079ff47212l16103330g0d112e1a085412l16111111v310j2g8",
      "121l16111430i0f1n0b7212l16111430u112f0h015321331101131323bm0Bk7121m1f30q22021u047121m191",
      "430v111f1h8121B820g05282o55h3n181026Jp0Bv71B3r4IjB510502Ba1Kc132610132B8132B0132610132e1",
      "Bo132C2B5fgCl253Tb2g1p5Ca3a7hdiehec12FfCo742B1105C5auH1mHeBeh7Bmtd1aBbqB3B92aB3287Ba22B9",
      "31511305FvC0Il252B525271010101u2Bk1610321633254c5216Dk0d0gcD5040291034601010131a235440hB",
      "8ZdBjBYmH46331cB510502Bn70gm9616161616161616Cg0Ol0Bl1G8Ba1CthvxS0BEcC3Bd2Ic3fa1kBegu2Cfo",
      "G2511014of12131mtBjeBhBu53011bramps7Bes0BgB8n217Eka72c5252596161Bp6DitKz3cm4BgIY46c4BoD1",
      "B1LaiBv2BlB8bDk41E6B4p6pC5u35252522B3b1p1i111e2dB2DqC5BkIbs3BgBfvdt5B5at2B34714BaEtiB34B",
      "34B78Bjca1e16111a1e1611C3Jm9la7o51B918C55201Bb11302mam9uC1i11alapC6Bn61C00f3121sBas3sB37",
      "1rrBlalaidhDeC8BnBidBidB3KsB961Cesa08lBahBekrmcBkBp120dBcB0oqB3t0208B230cBfe3l010B3h1oj1",
      "Bv610131e197BeB67212l16111430i0c4EuBki3k2uBfk110FoBeB93B4Bfk0BrBad0K7BbDkBvv72027111nf01",
      "0Cu72B6g010s0aB770l0bBdj0iC8I781B4h0BhtDg6111B5l0p5111ve0K7if01c1B1Ds0CfypD6DehG3CScD0fB",
      "Bfh5DzpS6INpRo7uhCehtiBfg3vk5iVgBvE0Ca50C2cC0110TAsDa5c3879Fx6Ck1C6112021231b10161C01327",
      "161r131410361Kj2o1o1u1o1u1o1u1o1u1o17BZku65I5BtEiBca6g0K1tiBbP4rXk613111e1G4BrC370BFk31q",
      "1110201913101060401010121110201010101011102316131310191g52141gTkp6p6p"]),
  (["cr"], "d0"),
  (["dq", "doublequote"], "B20"),
  (["extend"],
    String.join [
      "Y0DfIj6I7Bc10111110C8aBgkg0D56252113B30uqCraBq890o3181214Bb2Bs7Ban1B0Bm21h16a1t2Bo016212",
      "290a1q022Bo014412230u130b2Bo0171212k1m512Bo016212272a1u0Br4321390B84Bn016121371b1t2Bo016",
      "121371b1f0c3Bn116121390a1t2C60451017i1Bt026c7D2028b6C91r0101041Bhj115a1B390D4jn342122633",
      "db10a3Vv2zi3s2t1u1C0v90Bd210Dl1B20Dmb4bGr4Bp91s20BguBh4BfgB68c2ucBodBgjEo21k406022G6BvQc",
      "0G3B0C-u2Ed0D0vRa5D91zOk319B01Cg1Ig03040n440Cj1Bihqhd0B67pcBc3BfdB40C3dc081Bd2Bi01221511",
      "0B9451Hc711TZg0X1fgfLe1St0H20El4BU621153B8240F51Rt3M31Cg2C6aBh3Dq2BleB9021a3Bda70Bt2B4dg",
      "1Bc0c2Bgd8311Csb6020Etbl3Bn116212290a12634G0hn0ChjHb628r1CigDacD5eI0eHl511231011Ed62630s",
      "9B8613809aBefMl717Cil1dDq530111610C241114Kr39110Bg634FHt06eNUq4Br6BAo01Bm73Ch0b1TFb1ET1B",
      "d2mQu4358726u3Ek2BzrBm4Bh80e0m41eBKg61g261114D40F06Ln0Bt3Ps3-06Dd6CVg4YDB0CvE0Hf"]),
  (["ex", "extendnumlet"], "Cv0H+f0f1j0BXOu1o2Hf0"),
  (["fo", "format"], "Fd0BKi5m0G00Bh0M01Cg0DZb0B-v1q4Bh419BXUf0Hp2EG10f0Ix2fBCD03FGf7YLU60"),
  (["hl", "hebrewletter"], "BOgq43BzJa0191c1410111119"),
  (["ka", "katakana"], "MBh4D513Cq13HgfGgBe1CnBTAeBnBMCi3161110Iv2Bi0e3"),
  (["lf"], "a0"),
  (["ml", "midletter"], "Bq0Ds0Wf0On0Ek0GRi0BXPb0C10G40"),
  (["mn", "midnum"], "Bc0e0w20Qa0E21Cu0Mb0GCb0BXOb030Br030Fn0e0"),
  (["mb", "midnumlet"], "Be0H-91a0BXRd0Fk060"),
  (["nl", "newline"], "b1Do0Hz21"),
  (["nu", "numeric"],
    String.join [
      "Bg9BR6910E49G69Ms9Dm9Dm9Dm9Dm9Dm9Dm9Dm9Dm9Dm9D09Dm9C69Im9C69Bw69B69Jc9E09F6969Fm9Cm9E696",
      "9BCO69V69B69G69m9Cm9Mm9UYm9BM69CE69Zc9E09Bs9Eg9Im9Km9Dm9Lm9D69D69N69D69Xm9Hm9C69N69SY69C",
      "m9E69xDkBhCK09N69Pm9BCm9EUm9"]),
  (["ri", "regionalindicator"], "DyP6p"),
  (["sq", "singlequote"], "B70"),
  (["wsegspace"], "B00FSv0CLv612Ck0Dz00"),
  (["zwj"], "IAd0")]

/-- The parts of sentences, with their code points in compact notation. -/
def sentenceTable : List (List String × String) := [
  (["at", "aterm"], "Be0H-l0BXRd0Fr0"),
  (["cl", "close"],
    String.join [
      "B2042Bh010t010Bd0f0DTu3Bwt1CLr7p1a1Bm1e1Tp3t1BBg57dCf1v9MjlBv3B01BA2de129o0i7Nb92712BTIu",
      "1Gn1sf21g5F91Bh010t0101111BzYi2"]),
  (["cr"], "d0"),
  (["ex", "extend"],
    String.join [
      "Y0DfIj6I7Bc10111110C8aBgkg0D56252113B30uqCraBq890o3181214Bb2Bs7Ban1B0Bm21h16a1t2Bo016212",
      "290a1q022Bo014412230u130b2Bo0171212k1m512Bo016212272a1u0Br4321390B84Bn016121371b1t2Bo016",
      "121371b1f0c3Bn116121390a1t2C60451017i1Bt026c7D2028b6C91r0101041Bhj115a1B390D4jn342122633",
      "db10a3Vv2zi3s2t1u1C0v90Bd210Dl1B20Dmb4bGr4Bp91s20BguBh4BfgB68c2ucBodBgjEo21k406022G6BvQc",
      "1G2B0C-u2Ed0D0vRa5D91zOk319B01Cg1Ig03040n440Cj1Bihqhd0B67pcBc3BfdB40C3dc081Bd2Bi01221511",
      "0B9451Hc711TZg0X1fgfLe1St0H20El4BU621153B8240F51Rt3M31Cg2C6aBh3Dq2BleB9021a3Bda70Bt2B4dg",
      "1Bc0c2Bgd8311Csb6020Etbl3Bn116212290a12634G0hn0ChjHb628r1CigDacD5eI0eHl511231011Ed62630s",
      "9B8613809aBefMl717Cil1dDq530111610C241114Kr39110Bg634FHt06eNUq4Br6BAo01Bm73Ch0b1TFb1ET1B",
      "d2mQu4358726u3Ek2BzrBm4Bh80e0m41eBKg61g261114D40F06Ln0Bt3Ps3-06Dd6YFWlCvE0Hf"]),
  (["fo", "format"], "Fd0BKi5m0G00Bh0M01Cg0DZb0B-s021q4Bh419BXUf0Hp2EG10f0Ix2fBCD03FGf7YLU60"),
  (["lf"], "a0"),
  (["lo", "lower"],
    String.join [
      "D1pBf0a040B4n171010101010101010101010101010101010101010101010101010101110101010101010111",
      "0101010101010101010101010101010101010101010102010122010203140203220201010201110203010212",
      "2602020101010101010101110101010101010101120103010101010101010101010101010101010101010101",
      "01010101010101016202110401010101C41B371u4Ec0103023i0rB2113210101010101010101010101410202",
      "1BjBf10101010101010101010101010101010109010101010101010101010101010101010101010101010101",
      "0101020101010101011101010101010101010101010101010101010101010101010101010101010101010101",
      "010101010101010101010101010BgB8Cxj0Xr5CE28DnFvC10101010101010101010101010101010101010101",
      "0101010101010101010101010101010101010101010101010101010101010101010101010101010101010101",
      "0101010101010101010181010101010101010101010101010101010101010101010101010101010101010101",
      "010101010101010101010101010101885a78785a7878d2787878411603211832187a211Dp0d0gcDd03130r04",
      "040218340B1f40wbpBw6Bf103110101040111730101010101010101010101010101010101010101010101010",
      "10101010101010101010101010101010101010101010101011701040cB51050+Ij0101010101010101010101",
      "01010101010101010101010j010101010101010101010101012E501010101010121010101010101010101010",
      "1010101010101010101010101010101010101019101020101010104010201210101010101010101010505010",
      "10101010101040106010101010o21012ZlBa1d6CfTw06c4BB9pBGdB7E8B3Era1e1611O30221B918BI5BiC+dv",
      "VM0vZMqpq61hqpq310161aqpqpqpqpqpqpqpqpqrso15qo15qo15qo15qo1510BZk91j65I5BtCFkB1"]),
  (["nu", "numeric"],
    String.join [
      "Bg9BR6911E39G69Ms9Dm9Dm9Dm9Dm9Dm9Dm9Dm9Dm9Dm9D09Dm9C69Im9C69Bw69B69Jc9E09F6969Fm9Cm9E696",
      "9BCO69V69B69G69m9Cm9Mm9UYm9BM69CE69Zc9E09Bs9Eg9Im9Km9Dm9Lm9D69D69N69D69Xm9Hm9C69N69SY69C",
      "m9E69xDkBhCK09N69Pm9BCm9EUm9"]),
  (["le", "oletter"],
    String.join [
      "Nr043Gg0B466bq010E50P40Dmq44BcBaB311D210f171a220g01ttCob0oB091405l409030no7a5n15hB9BqBl3",
      "0i079ff47212l16103330g0d112e1a085412l16111111v310j2g8121l16111430i0f1n0b7212l16111430u11",
      "2f0h015321331101131323bm0Bk7121m1f30q22021u047121m191430v111f1h8121B820g05282o55h3n18102",
      "6BqBf11c6Bq110141n101911902410l3B00Bv71B3r4DjBak0g5433031724cc0C1Ba2Kb132610132B8132B013",
      "2610132e1Bo132C2B5fDhTb2g1p5Ca3a7hdiehec12fBjB3040C3Co742B1105C5auBht24bBb4pBmm9BkCi0CtB",
      "eh7Bmtd1aBbqB3B92aB3iBa22B93151130BBq3C7223Cz7Bn70gm9616161616161616Cg0Ol2p874244Cl621Cp",
      "135Ba1CthvBgfQ0GNvC0VUcC3Bd2Ic3fa1C20g0B0CfB78D8060D703612131mtBjeBhBu53011bramps7Bes0g4",
      "19a41B8n217km303Bh1031242010o22a72c525259616EhB2tKz3cm4BgII4Ld2D9C30191c141011111DbB1Lai",
      "Bv2BlB8bDk41E6D9Bn2u35252522B3b1p1i111e2dB2DqC5BkIbs3BgBfvdt5B5at2B34714DqCdD2B78BjEsJm9",
      "la7p1Dt5201Bb11302mam9uC1i11alapC6Bn61C00f3121sBas3sB371rrBlalaidhDeC8FnB3KsB961Cesa08lB",
      "ahBekrmcBkBp120dBcB0oqB3t0208B230cBfe3l010B3h1oj1Bv610131e197BeB67212l16111430i0c4EuBki3",
      "k2uBfk110FoBeB93B4Bfk0BrBad0C7qB56FpBbGj72027111nf010Cu72B6g010s0aB770l0bBdj0iC8I781B4h0",
      "BhtDg6111B5l0p5111ve0K7if01c1B1Ds0CfypD6DehG3CScD0fBBfh5DzpS6INpRo7uhCehtiBfg3vk5ixgCa50",
      "C2cC0110sF-n8BGlBa8IX7316111J2f0t220e38MbCI4Da5c3879ITg0PlBca6g0K1tiBbP4rXk613111e1G4E60",
      "BFk31q1110201913101060401010121110201010101011102316131310191g52141gEK4BJWvB0EBp6Gt2FU1e",
      "HJgDAvQtBP2Ewa5ECv"]),
  (["sc", "scontinue"], "Bc1c0BJ20Fe1Pa0EA9050CAa1D-c0BTQe110t1t13020a0F81c0C90"),
  (["se", "sep"], "E50Hz21"),
  (["sp"], "9011j0Dv0FOv0CLvaB40Bf0Dz00"),
  (["st", "sterm"],
    String.join [
      "B10t0BK90Ej2Fk0Bb2Hm0Bt01031J51BX41Ym041Y50G61Gc050Jq1L23Fe121t1Fs1C11zs192DP40d0m1Nd0zH",
      "s0Ie1H3030Lu1Cm1Cv0Eo1Ej2Eg1Hp0UTa1F90t0C10CXk1BHt4Bc3Ft1Dl3Dv2E1160g1Co111Dc0N11Ll15eD9",
      "1Hp2Q5010Hr1Cn1N41Vk1Ca1SZ91E50C11b0wj0TQ60HP80"]),
  (["up", "upper"],
    String.join [
      "C1pD5m16B1010101010101010101010101010101010101010101010101010101020101010101010102010101",
      "0101010101010101010101010101010101010101110103110111223111231111010111020111210113071111",
      "1101010101010101020101010101010101021101210101010101010101010101010101010101010101010101",
      "010101010107111201310101010J10103080601210111g18B30223010101010101010101010105020112BiBg",
      "0101010101010101010101010101010109010101010101010101010101010101010101010101010101010101",
      "1101010101010201010101010101010101010101010101010101010101010101010101010101010101010101",
      "0101010101010101010102B5Cw9B51050WiClCQa010101010101010101010101010101010101010101010101",
      "0101010101010101010101010101010101010101010101010101010101010101010101010101010101010101",
      "0101010101010901010101010101010101010101010101010101010101010101010101010101010101010101",
      "010101010101010101010109785a78785b010101087o7878784b4b3c4b4I5040322220346010101323a150qf",
      "j0ZipBZgBfBg0122010101310208210101010101010101010101010101010101010101010101010101010101",
      "010101010101010101010101010101010101010801040+Kd0101010101010101010101010101010101010101",
      "01010j010101010101010101010101010E701010101010103010101010101010101010101010101010101010",
      "1010101010101010101010a01011101010104010201030101010101010101010141410101010101010131060",
      "5010s0VZbpBG5B7E8B3Esa1e1611BXaBiC-dvVM0vZN0pqpqpq01120212317qpq1132716r113141036rpqpqpq",
      "pqpqpuoB1oB1oB1oB1oB10EJlB1CAep6p6p"])]

/-- The code points of a name in a table. -/
def find? (table : List (List String × String)) (name : String) : Option CodeRanges :=
  (table.find? fun e => e.1.contains name).map fun e => CodeRanges.ofCompact e.2

end LanguageHost.Text.Segment
