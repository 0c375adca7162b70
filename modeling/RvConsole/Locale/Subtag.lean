import RvConsole.Text.Basic

/-! The registered subtags of language tags.

Subtags are kept in the case in which tags write them: languages lower, scripts capitalised, regions
upper. -/
namespace RvConsole.Subtag

/-- The blank-separated words of a table. -/
def words (table : String) : List Text := (Text.split (Text.byte ' ') table).filter (· ≠ [])

def languages : List Text := words (
  "aa ab ae af ak am an ar as av ay az ba be bg bh bi bm bn bo br bs ca ce ch co cr cs cu " ++
  "cv cy da de dv dz ee el en eo es et eu fa ff fi fj fo fr fy ga gd gl gn gu gv ha he hi " ++
  "ho hr ht hu hy hz ia id ie ig ii ik in io is it iu iw ja ji jv jw ka kg ki kj kk kl km " ++
  "kn ko kr ks ku kv kw ky la lb lg li ln lo lt lu lv mg mh mi mk ml mn mo mr ms mt my na " ++
  "nb nd ne ng nl nn no nr nv ny oc oj om or os pa pi pl ps pt qu rm rn ro ru rw sa sc sd " ++
  "se sg sh si sk sl sm sn so sq sr ss st su sv sw ta te tg th ti tk tl tn to tr ts tt tw " ++
  "ty ug uk ur uz ve vi vo wa wo xh yi yo za zh zu agq ast asa bas bem bez brx ccp cgg chr " ++
  "ckb dav dje dsb dua dyo ebu ewo fil fur gsw guz haw hsb jgo jmc kab kam kde kea khq kkj " ++
  "kln kok ksb ksf ksh lag lkt lrc luo luy mas mer mfe mgh mgo mua mul mzn naq nds nmg nnh " ++
  "nus nyn prg rof rwk sah saq sbp seh ses shi smn teo twq tzm und vai vun wae xog yav yue " ++
  "zgh")

def scripts : List Text := words (
  "Adlm Arab Armn Beng Bopo Brai Cakm Cans Cher Cyrl Deva Ethi Geor Grek Gujr Guru Hang " ++
  "Hani Hans Hant Hebr Hira Jpan Kana Khmr Knda Kore Laoo Latn Mlym Mong Mymr Orya Sinh " ++
  "Syrc Taml Telu Tfng Thaa Thai Tibt Vaii Yiii Zinh Zmth Zsym Zxxx Zyyy Zzzz")

/-- Regions: countries, reserved codes and the numbers of larger areas. -/
def regions : List Text := words (
  "AA AC AD AE AF AG AI AL AM AN AO AQ AR AS AT AU AW AX AZ BA BB BD BE BF BG BH BI BJ BL " ++
  "BM BN BO BQ BR BS BT BU BV BW BY BZ CA CC CD CF CG CH CI CK CL CM CN CO CP CR CS CT CU " ++
  "CV CW CX CY CZ DD DE DG DJ DK DM DO DY DZ EA EC EE EG EH ER ES ET EU EZ FI FJ FK FM FO " ++
  "FQ FR FX GA GB GD GE GF GG GH GI GL GM GN GP GQ GR GS GT GU GW GY HK HM HN HR HT HU HV " ++
  "IC ID IE IL IM IN IO IQ IR IS IT JE JM JO JP JT KE KG KH KI KM KN KP KR KW KY KZ LA LB " ++
  "LC LI LK LR LS LT LU LV LY MA MC MD ME MF MG MH MI MK ML MM MN MO MP MQ MR MS MT MU MV " ++
  "MW MX MY MZ NA NC NE NF NG NH NI NL NO NP NQ NR NT NU NZ OM PA PC PE PF PG PH PK PL PM " ++
  "PN PR PS PT PU PW PY PZ QA QM QN QO QP QQ QR QS QT QU QV QW QX QY QZ RE RH RO RS RU RW " ++
  "SA SB SC SD SE SG SH SI SJ SK SL SM SN SO SR SS ST SU SV SX SY SZ TA TC TD TF TG TH TJ " ++
  "TK TL TM TN TO TP TR TT TV TW TZ UA UG UK UM UN US UY UZ VA VC VD VE VG VI VN VU WF WK " ++
  "WS XA XB XC XD XE XF XG XH XI XJ XK XL XM XN XO XP XQ XR XS XT XU XV XW XX XY XZ YD YE " ++
  "YT YU ZA ZM ZR ZW ZZ 001 002 003 005 009 011 013 014 015 017 018 019 021 029 030 034 " ++
  "035 039 053 054 057 061 142 143 145 150 151 154 155 202 419")

def variants : List Text := words (
  "1606nict 1694acad 1901 1959acad 1994 1996 abl1943 alalc97 aluku ao1990 arevela arevmda " ++
  "baku1926 balanka barla basiceng bauddha biscayan biske bohoric boont colb1945 cornu " ++
  "dajnko ekavsk emodeng fonipa fonnapa fonupa fonxsamp hepburn heploc hognorsk hsistemo " ++
  "ijekavsk itihasa jauer jyutping kkcor kociewie kscor laukika lipaw luna1918 metelko " ++
  "monoton ndyuka nedis newfound nulik osojs oxendict pahawh2 pahawh3 pahawh4 pamaka " ++
  "petr1708 pinyin polyton posix puter rigik rozaj rumgr scotland scouse simple solba " ++
  "sotav spanglis surmiran sursilv sutsilv tarask uccor ucrcor ulster unifon vaidika " ++
  "valencia vallader wadegile xsistemo")

end RvConsole.Subtag
