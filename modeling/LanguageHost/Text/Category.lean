import LanguageHost.Text.CodeRanges

/-!
# General categories

Every code point that is no surrogate belongs to exactly one general category, and some groups of
categories have names of their own.  All names are in lower case and without separators.
-/

namespace LanguageHost.Text.Category

/-- The names of each category with its code points in compact notation. -/
def table : List (List String × String) := [
  (["cc", "control", "cntrl"], "0vCvB0"),
  (["cf", "format"], "Fd0BKi5m0G00Bh0M01Cg0DZb0B-s4q4Bh419BXUf0Hp2EG10f0Ix2fBCD03FGf7YLU60uCv"),
  (["cn", "unassigned"],
    String.join [
      "xo1637010k0Md0B61Bi130Bn7r36aIe0Bs1D5dBr1Bh1f0s110b4v025Hc08121m0701241912147132051p1306",
      "321m07020202110532132164016h9309030m0702051a030311e41c670308121m0702051912136332051i9206",
      "230422010222232c3523041151dl4d030n0g190304620311141a6m030n0a051903046252041a03bd030Bj030",
      "63g1q030i2o090117213601085a13bBq3tB4201050o010n1501070a14vC80B43B70B40f0dB4G601411Lp0417",
      "01041B9041B1041701041f0Bp041C31B02q5Cm161Ut2Cp6m8o8kbd0302bCu1a5a5q5Cp6Bb4C69v0c3c312Ba1",
      "5aBc3q5b2Bu1C10t1b5a5e1vBgCd2Bf0Dk7Bs2f2Bs6Bb1b7Bb4Qm161B616180101010v1Bl0f0e160j13090D5",
      "0c1r0d2B1eB1eEc3UnobkBYk1B00Kt4Bd01411Bo62do87070707070707070DuB1q0CpbGmpc3C00Cm1D74Bb0C",
      "u0CkbBf0yTd2Bn8KsjFo7Gb420105nBr2a5Bo7C67c5Dkau2Ce0b3B10Bn8e1a1D7ns96161687070Bs3Du1a5Kz",
      "4bn3Bh3ITe1DaB57b54q050102020DtfNt1Bm61vBa5Bj0j04350E7110Fu261616132707951c0q0j020f1eB1D",
      "r433Bd2Co0d21BeBeE1t2Bhes3B48u4Bb4u0B53eB9Eu1a5B43B43B87Bkac0f07020b0f0702C2Jn8m98n60Ba0",
      "9C46110Bc02211n0C879Bfj024B12r41BvBo3k1Bi0248030t133a696C0vB73c8Bm2t1r4q64b7CfC9BmBjcBj6",
      "Be7aJ5v0Ba0312CaBb7BalqB5sjn8Ce3B48C4911p6a5Bl0i7B78D00kai0BfBt701040f0b5Br4a5408121m070",
      "2050a12131151471725EaCs05tC87aF5Bm1B6B1C5aa5diBq5aBlr1f3nFoBsD3Cjb81118020u021c8aC581Be1",
      "bqC87CjcC96aHl90Bd0e9t2B01m0eC87020Bc2102097a56020B502066aJlp6h0B92sCl1eBicyrD5Df05aG4CS",
      "bD3cBCmDz9S7INoRp6v0a3Ch0a5u169C69a070l4jVfCrD4Cb3Bp6hBv5a2dF-o7BGmB99IX6407020J3e1s311d",
      "47McCI3Db4d296a18ESrBe1n8DkBrHm9B71G2kC6DpkbkbCn8pE6Cl0C7021112140c01070C10418070s040501",
      "270Kk1J41Vue50fBCfv56Gk70h1702054BuB01DfBd2e1a32JvvgBq41OfBaX5704020f0G51gB8Cc3a32YgC4Cb",
      "BtG140r0201110a040101513101010302011101010101020114070404010a0h43050hBj2IdBc3D4bf1f0f0B5",
      "9FeBntcBc3962d6Ep+o3h2d2Dn3Cv5c31ec3Bo7a5B87u12CdKkbe1d296Be077e39696Ej0BnB4aBA5BJX0vEBq",
      "5Gu1FU2dHJhDAuQuBP1Ewb4ED0VXCg1tD0DvHgB-QfB--u1B--u10v"]),
  (["co", "privateuse"], "BYA0GHvyBY0B--t2B--t"),
  (["ll", "lowercaseletter"],
    String.join [
      "D1pBq0B9n1710101010101010101010101010101010101010101010101010101011101010101010101110101",
      "0101010101010101010101010101010101010101020101220102031402032202010102011102030102122602",
      "0201010101010101011101010101010101011201030101010101010101010101010101010101010101010101",
      "0101010101016202110401010101C41qG10103032i0rB21132101010101010101010101014102021BjBf1010",
      "1010101010101010101010101010109010101010101010101010101010101010101010101010101010102010",
      "1010101011101010101010101010101010101010101010101010101010101010101010101010101010101010",
      "101010101010101010BgB8Cw7Ba22Xo5CE28DnBbBvc1B1D60101010101010101010101010101010101010101",
      "0101010101010101010101010101010101010101010101010101010101010101010101010101010101010101",
      "0101010101010101010181010101010101010101010101010101010101010101010101010101010101010101",
      "010101010101010101010101010101885a78785a7878d2787878411603211832187a211Ii03130r040402183",
      "40Bl0CVbBf103110101040111550101010101010101010101010101010101010101010101010101010101010",
      "10101010101010101010101010101010101011701040cB51050+Ij0101010101010101010101010101010101",
      "01010101010j010101010101010101010101010E701010101010121010101010101010101010101010101010",
      "1010101010101010101010101010171010201010101040102012101010101010101010105050101010101010",
      "1040106010101010s030ZlBa587CfTw06c4BB9pBGdB7E8B3Era1e1611BY3BiC+dvVM0vZMqpq61hqpq310161a",
      "qpqpqpqpqpqpqpqpqrso15qo15qo15qo15qo1510BZk91j65CPnB1"]),
  (["lm", "modifierletter"],
    String.join [
      "Vgh4be47010E5050Ou0H60F41Id140v09030F00F70BGk0Dv0Rl0BWq0Db0T30Og5FeBud0B2B4Vh0d0gcC+v1Hh",
      "0Fv0Ol0Bb450D11Ct2xYm0BH25Ie0Di0s1Dp8Cg0n0D9231Ol0m0E90Dc0l1D7390VA60Bd1B-051B918Yy53BCf",
      "cC0110QAc31611MBhBtG96zd0BCv0"]),
  (["lo", "otherletter"],
    String.join [
      "Fa0f0I0043Gg0Zrq43Bdv19B311D210o1a220g01ttCob0oB0llBao7a5n15hB8BrBl30i079ge47212l1610333",
      "0g0d112e1a085412l16111111v310j2g8121l16111430i0f1n0b7212l16111430u112f0h0153213311011313",
      "23bm0Bk7121m1f30q22021u047121m191430v111f1h8121B820g05282o55h3n181026BqBf11c5Br110141n10",
      "19119024n3B00Bv71B3r4DjBak0g5433031724cc0DhK8132610132B8132B0132610132e1Bo132C2B5fDhTb2g",
      "1p5Ca677hdiehec12fBjB80C3B21Bk742B1105C5auBht24bBb4pBmm9BkFgBeh7Bmtd1aBbqB3B92atDh315113",
      "0BBq3C-nBnom9616161616161616R70Bl04Cl801Cp405Ba1CthvBgfQ0GNvC0UQk1BDmC3B78Ib4fa1C20BhC5F",
      "90D703612131mtBjeBhBu53011bramps7BeBd428a41B8n217kf15303Bh1031242010o13a70e525259616EhB2",
      "tKz3cm4BgII4Ld2D9C30191c141011111DbB1LaiBv2BlB8bDk41E6D991Bc2u35252522B3b1p1i111e2dB2DqM",
      "5s3BgBfvdj176B5at2B347E0CdD2B78BjEsJm9la7Eo5201Bb11302mam9uC1i11alapC6Bn61C00f3121sBas3s",
      "B371rrBlalaidhDeC8FnB3KsB961Cesa08lBahBekrmcBkBp120dBcB0oqB3t0208B230cBfe3l010B3h1oj1Bv6",
      "10131e197BeB67212l16111430i0c4EuBki3k2uBfk110FoBeB93B4Bfk0BrBad0C7qB56FpBbGj72027111nf01",
      "0Cu72B6g010s0aB770l0bBdj0iC8I781B4h0BhtDg6111B5l0p5111ve0K7if01c1B1Ds0CfypH6G3CScD0fBBfh",
      "5DzpS6INpRo7uhCehtiBfBjk5ixgCa50FfF-n8BGlBa8IXnJ2f0t220e38MbCI4Da5c3879ITg0PlBcB10K1tiBb",
      "P4qXl613111e1G4BJr31q1110201913101060401010121110201010101011102316131310191g52141gEK4BJ",
      "WvB0EBp6Gt2FU1eHJgDAvQtBP2Ewa5ECv"]),
  (["lt", "titlecaseletter"], "O502020B60HMl78787c0f0Bf0"),
  (["lu", "uppercaseletter"],
    String.join [
      "C1pD5m16B1010101010101010101010101010101010101010101010101010101020101010101010102010101",
      "0101010101010101010101010101010101010101110103110111223111231111010111020111210113070202",
      "0201010101010101020101010101010101020201210101010101010101010101010101010101010101010101",
      "010101010107111201310101010J10103080601210111g18B30223010101010101010101010105020112BiBg",
      "0101010101010101010101010101010109010101010101010101010101010101010101010101010101010101",
      "1101010101010201010101010101010101010101010101010101010101010101010101010101010101010101",
      "0101010101010101010102B5Cw9B51050WiClCEqBa22K0010101010101010101010101010101010101010101",
      "0101010101010101010101010101010101010101010101010101010101010101010101010101010101010101",
      "0101010101010101010901010101010101010101010101010101010101010101010101010101010101010101",
      "010101010101010101010101010109785a78785b010101087C83c3c3c4b3I6040322220346010101323a150B",
      "t0CTsBfBg0122010101310208210101010101010101010101010101010101010101010101010101010101010",
      "101010101010101010101010101010101010801040+Kd0101010101010101010101010101010101010101010",
      "10j010101010101010101010101010E701010101010103010101010101010101010101010101010101010101",
      "0101010101010101010a01011101010104010201030101010101010101010141410101010101010131060501",
      "0s0VZbpBG5B7E8B3Esa1e1611BXaBiC-dvVM0vZN0pqpqpq01120212317qpq1132716r113141036rpqpqpqpqp",
      "qpuoB1oB1oB1oB1oB10EJlB1"]),
  (["mc", "spacingmark"],
    String.join [
      "CI30Bn0228311Bi1Bq26121a0Bb0Bq2C20Bq28011Bl1Bq0106121a0D61113212a0B92Bt3Bt1Bq014211191s0",
      "e1Bq25212a0Ba1Cb267i1Ka1Bv0Fb1406021p1a226l12520a2BTo0u0E107711Kq3224115H01Bq010901185Eh",
      "0Bg0501411Bt0u04120Bs0221031Bg781Fb0l0EZm1z-j120Co1BifEe1Bf0Bg14122De121o0Bd010Dd02150Hd",
      "1111110ZAj010Dv0Bd241Dj0o1Br0Bg291d0Ct23110Fa2v1Bq113212290a1Gh28130Da2601320Hd26320Dh28",
      "110Dd01160D9140I5290Hn511402010Ee28340Ck0t1Bu0Mn0e0Da07020Gl44110Ku1c0Bg18110UAfBmD81YLj",
      "165"]),
  (["me", "enclosingmark"], "BE81FRk0BQu312BBMb2"),
  (["mn", "nonspacingmark"],
    String.join [
      "Y0DfIj4I9Bc10111110C8aBgkg0D56252113B30uqCraBq890o3181214Bb2Bs7Ban1vBn010474036a1t0Bq043",
      "80k1q021Bp041412230u130b1Bp0441140k1m510Bq020138071b1u0Bt0c0Bi030Bn012521371b1t0Bq020605",
      "1k1s1Bp14380k1t0C807210Cq026c7D2028b6C91r01010Bnd14115a1B390D63151121p142g3d02160f0Vv2zi",
      "2t1u1u1C0116802a90Bd210Dl1B20Dm2419062Gr120Bq0161010276920Bgd1fBh3Bg0141050B88c1B032112B",
      "o0113012Bq721Eo21c16406031G6BvWgc403bC-u2Ed0D0vRa3Db1zOk049B01Cg1Ig03040p150En1qhd0B67pa",
      "Be2Bg02321B70C352121c080Bf0Bj012215110Ba180He02040TZg0X1fgf+d0H20El4BU621153B8240F51Rt3M",
      "31Cg2C6aBh3Dr0BmeB9021a2Bh32170Bt2B4417Bu0c1Bk8a320Cv220116020Et037l1Bp130B5634G372210n0",
      "Ck5104111He36111r1Cl72011Da0102510D522314I3811I011040Eg32140B09B8523809522Bec11Mm61510Ci",
      "l261111Dq530111610C813010Kr1b1Bk45010FHt06eNUq4Br6BAo0Bv3Ch0TFo1ET1Bd2mR02h726u3Ek2BzrBm",
      "4Bh80e0m41eBKg61g261114D40F06Ln0Bt3Ps3-06Dd6YFzlHf"]),
  (["nd", "decimalnumber", "digit"],
    String.join [
      "Bg9BR69E69G69Ms9Dm9Dm9Dm9Dm9Dm9Dm9Dm9Dm9Dm9D09Dm9C69Im9C69Bw69B69Jc9E09F6969Fm9Cm9E6969B",
      "CO69V69B69G69m9Cm9Mm9UYm9BM69CE69Zc9E09Bs9Eg9Im9Km9Dm9Lm9D69D69N69D69Xm9Hm9C69N69SY69Cm9",
      "E69xDkBhCK09N69Pm9BCm9EUm9"]),
  (["nl", "letternumber"], "FXe2CTfB223DTu0p8e2zVb9WSgBkOc080E64IBaDe"),
  (["no", "othernumber"],
    String.join [
      "Fi15022CJl5Lo5Do2E56Gp6h8Nh9BBljBDj9P00BUl03569G6fB90WmBrCelTmtBL90BEk3Ea9u71eB09B7ezLg5",
      "WGhBcC13h1KlqB43BJk7p6B78Cb4m5F012f2BdC08Bk1u2Cb4D87o7B96Ka5L0uEu9Ba3Dg6E6jLrjBK51Ne8x7i",
      "wjkSy66YumZB9jcjDcoFKe8z1Bq1213CcBc1e+2c"]),
  (["pc", "connectorpunctuation"], "Cv0H+v1j0BXOu1o2Hf0"),
  (["pd", "dashpunctuation"], "Bd0BKs0Bj0DS10BA50CA95DQ1020v140s0Nu0j0Df0BTMg1B50a0F90Dyv0"),
  (["pe", "closepunctuation"],
    String.join [
      "B90Bj0v0DVt010Bwu0CN90Bn0f0Tq010u0BBu0101010101010Cg0B0010101010Mk010101010101010101010C",
      "0010B10BB50101010Bc0101010Nc0101010103010101021BTIu0Gp0t01010101010101030h01010Fa0Bj0v02",
      "020"]),
  (["pf", "finalpunctuation"], "Fr0Hwt030s0DO80104020f030"),
  (["pi", "initialpunctuation"], "Fb0Hxc02120p0DO80104020f030"),
  (["po", "otherpunctuation"],
    String.join [
      "B1212201011a131r0C4050e170Vu080Oi5B90Bm02020Bc1k111d012Ca3D60BbdH92Bmev0I51a0Ec0Do0Dp0M6",
      "0c0Lf0Cq0a1F8e10Dg0Ca441Df5Fb0T48Y50Ds2C71Et212B5513Jp1Go1E0615Fc6s1Dt3Br4Bu1C07b0w21878",
      "823223a1019DEq311Dg0Ef1422028111021a41923101c22Nc2Bp0Ft0zA21Id2D30a0Dj5Ls3Cm1B8210Bh1Bf0",
      "D1cg1Ds3Du1g1Hp0UR4620m0k1233213726011El212201011a131r0B4021Mq2Us0Bg0Mu0X70G70v0Ig8B60Dg",
      "6C26Cp3zo4Bc3Ft6Dd113Du3Bg1Cf340d012Co5Db0N14a110D80HqmD92scCc0E22Hs0I82Er0Cs7Cj214Ct9Jn",
      "4Ba1U51CacFf0BDg4Cxs1OTr1E50C1480wi3K70TFs0HP74DWi1"]),
  (["ps", "openpunctuation"],
    String.join [
      "B80Bi0v0DVu010Bwu0CLu030B60Bn0f0Tq010u0BBu0101010101010Cg0B0010101010Mk01010101010101010",
      "1010C0010B10BB50101010p0i0101010Nc0101010103010101020BTJ10Gn0t01010101010101030h01010Fa0",
      "Bi0v03020"]),
  (["sc", "currencysymbol"],
    "B40Dt3BH90Dr0Pi1Pi170Hl0I70S50CMr0CG4B0BBxn0VO30Dc0Eq0Gr131H-m3BQYu0CNg0"),
  (["sk", "modifiersymbol"],
    "Cu010C70604030Q93cd56101gDl0e1BI20FZk012b2d2d2d1EEs1zT3m91D71+g0e1UC6gxr010F20BzAn4"),
  (["sm", "mathsymbol"],
    String.join [
      "Bb0g2Bt010Bd040B50v0Xu0Qf2GRr0d0B72d2Eb0B7460C445140202070v12010vIbB01Cq0uoB85Ol090Bm7Df",
      "0Kg42uafI0E2mBu4v2I1Bgk25BT+s0Zo012F40g2Bt010E3063BVWk0p0v0p0v0p0v0p0v0p0FZc1"]),
  (["so", "othersymbol"],
    String.join [
      "F60204010+h0Ia1Dv1Ge0a0j1Hn0Q30Ll0E2510E40Gf0B90M72f01225k01010E57151153G51Xg9Wj0Wi0EtB1",
      "L1998BM311311a0116510101040b1e01110Bq194231111161u21101uIc74j262Cg1tpB76C4paChCdmFm181Bl",
      "8De1HnBcBbC0HvQ0Bfl16B62v1D8H55L51Bep1CocGlqb80d1c0l161Kg149B0B3subt80fvaB6fJvGO0BvVUgBm",
      "x13a110Rt2UW6fDv0Bd2P403041d1Jp8Bpg221c30BfBcBTq1Sf0DDm0CEl74gSwa350UKm0EVjDjBsHlaB62Br5",
      "2m17t4BslC130FqCmBF9PvBn3Bi71d11BW80Cws0E10WhBb4D3ce2e1e1B4nF0BosdBb4871e5EqHq5Wn4g3c3Dm",
      "4Cu6b40fb4Bn896B78t21CeKjcd2c387Bd168d48787Ei1Bm"]),
  (["zl", "lineseparator"], "IB80"),
  (["zp", "paragraphseparator"], "IB90"),
  (["zs", "spaceseparator"], "B00Dv0FOv0CLvaB40Bf0Dz00")]

/-- The names of each group with the categories in it. -/
def groups : List (List String × List String) := [
  (["l", "letter"], ["lu", "ll", "lt", "lm", "lo"]),
  (["lc", "casedletter"], ["lu", "ll", "lt"]),
  (["m", "mark", "combiningmark"], ["mn", "mc", "me"]),
  (["n", "number"], ["nd", "nl", "no"]),
  (["p", "punctuation", "punct"], ["pc", "pd", "ps", "pe", "pi", "pf", "po"]),
  (["s", "symbol"], ["sm", "sc", "sk", "so"]),
  (["z", "separator"], ["zs", "zl", "zp"]),
  (["c", "other"], ["cc", "cf", "cn", "co"])]

/-- The code points of a category. -/
def ranges? (name : String) : Option CodeRanges :=
  (table.find? fun e => e.1.contains name).map fun e => CodeRanges.ofCompact e.2

/-- The code points of a category or a group of categories. -/
def find? (name : String) : Option CodeRanges :=
  match groups.find? fun e => e.1.contains name with
  | some (_, names) => some (names.foldl (fun r n => r.union ((ranges? n).getD [])) [])
  | none => ranges? name

end LanguageHost.Text.Category
