/-
# Sample bodies

Bodies of the kind that an editor hands over, for demonstration.
-/

import Letterpress.Text.Basic

namespace Letterpress.Sample

/-- The smallest useful body: a heading and a paragraph. -/
def minimal : Text :=
  "<h1>Welcome aboard</h1><p>Thanks for signing up. We are glad to have " ++
  "you.</p>"

/-- A newsletter with headings, formatted paragraphs, links and lists. -/
def newsletter : Text :=
  "\n<h1>Monthly Update</h1>\n<p>Hello <strong>team</strong>, here is what " ++
  "happened in <em>March</em>.</p>\n<h2>Highlights</h2>\n<ul>\n" ++
  "    <li>Shipped the new onboarding flow</li>\n" ++
  "    <li>Closed <b>42</b> support tickets</li>\n" ++
  "    <li>Read the <a href=\"https://example.com/notes\">release " ++
  "notes</a></li>\n</ul>\n<h3>Next steps</h3>\n<ol>\n" ++
  "    <li>Review the roadmap</li>\n" ++
  "    <li>Book the <u>quarterly</u> planning session</li>\n</ol>\n" ++
  "<p style=\"text-align: center;\">See you next month!</p>\n"

/-- Image blocks as an editor writes them, and one with the image alone. -/
def imageBlocks : Text :=
  "\n<h2>Product spotlight</h2>\n<div style=\"text-align: center;\" " ++
  "data-alignment=\"center\" data-width=\"400\"><img " ++
  "src=\"data:image/png;base64,iVBORw0KGgoAAAANSUhEUgAAAAEAAAABCAYAAAAfFcSJAAAA" ++
  "DUlEQVR42mNkYPhfDwAChwGA60e6kgAAAABJRU5ErkJggg==\" alt=\"Spotlight\" " ++
  "style=\"width: 400px; height: auto;\"></div>\n" ++
  "<p>Our newest release in one picture.</p>\n<div data-alignment=\"right\">" ++
  "<img src=\"https://example.com/badge.png\" width=\"120\"></div>\n"

/-- What the conversion of a word processor document looks like. -/
def imported : Text :=
  "<h1>Quarterly Report</h1><p>Revenue grew <strong>12%</strong> over the " ++
  "previous quarter.</p><p><em>Prepared by the finance " ++
  "team.</em></p><h2>Summary</h2><ol><li>Costs held flat</li><li>Headcount up " ++
  "by three</li></ol><p>Questions go to <a " ++
  "href=\"mailto:finance@example.com\">finance@example.com</a>.</p>"

/-- Every element that has default styles. -/
def allElements : Text :=
  "\n<h1>Heading 1</h1>\n<h2>Heading 2</h2>\n<h3>Heading 3</h3>\n" ++
  "<p>Paragraph with <strong>strong</strong>, <b>bold</b>, <em>em</em>, " ++
  "<i>italic</i>,\n<u>underline</u>, <span>span</span> and a <a " ++
  "href=\"https://example.com\">link</a>.<br>Second line.</p>\n" ++
  "<p style=\"text-align: right; color: #555555;\">Right-aligned paragraph " ++
  "with an author colour.</p>\n<ul>\n    <li>Unordered item</li>\n</ul>\n<ol>\n" ++
  "    <li>Ordered item</li>\n</ol>\n<div style=\"text-align: left;\"><img " ++
  "src=\"pic.png\" style=\"width: 180px;\"></div>\n<div>Plain container</div>\n"

/-- All bodies with their names, in order. -/
def all : List (Text × Text) :=
  [("minimal", minimal),
   ("newsletter", newsletter),
   ("image", imageBlocks),
   ("imported", imported),
   ("all_elements", allElements)]

end Letterpress.Sample
