/-
# Element names

The names that the library gives a meaning, one constructor each, and all
others. Names are compared without regard to ASCII case, so a name is turned
into a tag by `Tag.ofName`, which keeps an unlisted name in small letters.
-/

import Letterpress.Text.Basic

namespace Letterpress

/-- The name of an element. -/
inductive Tag
  | a | address | annotationXml | applet | area | article | aside | b | base | basefont
  | bgsound | big | blockquote | body | br | button | caption | center | code | col
  | colgroup | dd | desc | details | dialog | dir | div | dl | dt | em | embed | fieldset
  | figcaption | figure | font | footer | foreignObject | form | frame | frameset | h1
  | h2 | h3 | h4 | h5 | h6 | head | header | hgroup | hr | html | i | iframe | image
  | img | input | isindex | keygen | li | link | listing | main | malignmark | marquee
  | math | menu | metaData | mglyph | mi | mn | mo | ms | mtext | nav | nobr | noembed
  | noframes | noscript | object | ol | optgroup | option | p | param | plaintext | pre
  | rb | rp | rt | rtc | ruby | s | script | search | sectionBlock | select | small | source
  | span | strike | strong | style | sub | summary | sup | svg | table | tbody | td
  | template | textarea | tfoot | th | thead | title | tr | track | tt | u | ul | var
  | wbr | xmp
  | other (name : Text)
  deriving DecidableEq

namespace Tag

/-- The listed tags in alphabetical order. -/
def listed : List Tag :=
  [.a, .address, .annotationXml, .applet, .area, .article, .aside, .b, .base, .basefont,
   .bgsound, .big, .blockquote, .body, .br, .button, .caption, .center, .code, .col,
   .colgroup, .dd, .desc, .details, .dialog, .dir, .div, .dl, .dt, .em, .embed, .fieldset,
   .figcaption, .figure, .font, .footer, .foreignObject, .form, .frame, .frameset, .h1,
   .h2, .h3, .h4, .h5, .h6, .head, .header, .hgroup, .hr, .html, .i, .iframe, .image,
   .img, .input, .isindex, .keygen, .li, .link, .listing, .main, .malignmark, .marquee,
   .math, .menu, .metaData, .mglyph, .mi, .mn, .mo, .ms, .mtext, .nav, .nobr, .noembed,
   .noframes, .noscript, .object, .ol, .optgroup, .option, .p, .param, .plaintext, .pre,
   .rb, .rp, .rt, .rtc, .ruby, .s, .script, .search, .sectionBlock, .select, .small, .source,
   .span, .strike, .strong, .style, .sub, .summary, .sup, .svg, .table, .tbody, .td,
   .template, .textarea, .tfoot, .th, .thead, .title, .tr, .track, .tt, .u, .ul, .var,
   .wbr, .xmp]

/-- The name as markup writes it. -/
def name : Tag → Text
  | .a => "a"
  | .address => "address"
  | .annotationXml => "annotation-xml"
  | .applet => "applet"
  | .area => "area"
  | .article => "article"
  | .aside => "aside"
  | .b => "b"
  | .base => "base"
  | .basefont => "basefont"
  | .bgsound => "bgsound"
  | .big => "big"
  | .blockquote => "blockquote"
  | .body => "body"
  | .br => "br"
  | .button => "button"
  | .caption => "caption"
  | .center => "center"
  | .code => "code"
  | .col => "col"
  | .colgroup => "colgroup"
  | .dd => "dd"
  | .desc => "desc"
  | .details => "details"
  | .dialog => "dialog"
  | .dir => "dir"
  | .div => "div"
  | .dl => "dl"
  | .dt => "dt"
  | .em => "em"
  | .embed => "embed"
  | .fieldset => "fieldset"
  | .figcaption => "figcaption"
  | .figure => "figure"
  | .font => "font"
  | .footer => "footer"
  | .foreignObject => "foreignobject"
  | .form => "form"
  | .frame => "frame"
  | .frameset => "frameset"
  | .h1 => "h1"
  | .h2 => "h2"
  | .h3 => "h3"
  | .h4 => "h4"
  | .h5 => "h5"
  | .h6 => "h6"
  | .head => "head"
  | .header => "header"
  | .hgroup => "hgroup"
  | .hr => "hr"
  | .html => "html"
  | .i => "i"
  | .iframe => "iframe"
  | .image => "image"
  | .img => "img"
  | .input => "input"
  | .isindex => "isindex"
  | .keygen => "keygen"
  | .li => "li"
  | .link => "link"
  | .listing => "listing"
  | .main => "main"
  | .malignmark => "malignmark"
  | .marquee => "marquee"
  | .math => "math"
  | .menu => "menu"
  | .metaData => "meta"
  | .mglyph => "mglyph"
  | .mi => "mi"
  | .mn => "mn"
  | .mo => "mo"
  | .ms => "ms"
  | .mtext => "mtext"
  | .nav => "nav"
  | .nobr => "nobr"
  | .noembed => "noembed"
  | .noframes => "noframes"
  | .noscript => "noscript"
  | .object => "object"
  | .ol => "ol"
  | .optgroup => "optgroup"
  | .option => "option"
  | .p => "p"
  | .param => "param"
  | .plaintext => "plaintext"
  | .pre => "pre"
  | .rb => "rb"
  | .rp => "rp"
  | .rt => "rt"
  | .rtc => "rtc"
  | .ruby => "ruby"
  | .s => "s"
  | .script => "script"
  | .search => "search"
  | .sectionBlock => "section"
  | .select => "select"
  | .small => "small"
  | .source => "source"
  | .span => "span"
  | .strike => "strike"
  | .strong => "strong"
  | .style => "style"
  | .sub => "sub"
  | .summary => "summary"
  | .sup => "sup"
  | .svg => "svg"
  | .table => "table"
  | .tbody => "tbody"
  | .td => "td"
  | .template => "template"
  | .textarea => "textarea"
  | .tfoot => "tfoot"
  | .th => "th"
  | .thead => "thead"
  | .title => "title"
  | .tr => "tr"
  | .track => "track"
  | .tt => "tt"
  | .u => "u"
  | .ul => "ul"
  | .var => "var"
  | .wbr => "wbr"
  | .xmp => "xmp"
  | .other n => n

/-- The tag of a name in any case. -/
def ofName (n : Text) : Tag :=
  (listed.find? (·.name == Text.lower n)).getD (.other (Text.lower n))

/-- The tags of the vocabulary that an email body is written in. -/
def isRecognised : Tag → Bool
  | .div | .p | .h1 | .h2 | .h3 | .strong | .b | .em | .i | .u | .a | .ul | .ol | .li | .img
  | .span | .br | .table | .tbody | .tr | .td | .th | .body | .html | .head | .script
  | .style => true
  | _ => false

/-- The headings that have a size of their own. -/
def isHeading : Tag → Bool
  | .h1 | .h2 | .h3 => true
  | _ => false

/-- Ordered and unordered lists. -/
def isList : Tag → Bool
  | .ul | .ol => true
  | _ => false

/-- Elements written without an end tag. -/
def isVoid : Tag → Bool
  | .img | .br | .area | .base | .col | .embed | .hr | .input | .link | .metaData | .source
  | .track | .wbr => true
  | _ => false

/-- Elements whose text is written as it is. -/
def isRawText : Tag → Bool
  | .script | .style => true
  | _ => false

end Tag

end Letterpress
