import Arabize.Json.Writer

/-! # Sample files

A page, a document and a program for trying the program out.
-/

namespace Arabize.CommandLine

def joinLines (lines : List String) : Text := Text.intercalate "\n" (lines.map Text.ofString)

def samplePage : Text := joinLines
  ["<!DOCTYPE html>",
   "<html>",
   "<head>",
   "    <title>Test Page</title>",
   "</head>",
   "<body>",
   "    <h1>Welcome</h1>",
   "    <p>This is a test page for translation.</p>",
   "    <img src=\"image.jpg\" alt=\"Test Image\" title=\"Image Title\">",
   "    <input type=\"text\" placeholder=\"Enter your name\" aria-label=\"Name input\">",
   "    <button>Submit</button>",
   "</body>",
   "</html>"]

/-- A field of the sample document that is a string. -/
def sampleField (key value : String) : Text × Json :=
  (Text.ofString key, .str (Text.ofString value))

def sampleDocument : Json :=
  .obj
    [sampleField "title" "Welcome",
     sampleField "message" "This is a test",
     ("items", .arr (List.map (fun t => Json.str (Text.ofString t)) ["First", "Second", "Third"])),
     ("nested", .obj [sampleField "key" "value", sampleField "description" "Nested object"])]

def sampleProgram : Text := joinLines
  ["function greet() \x7b",
   "    const message = \"Hello World\";",
   "    alert(\"Welcome to the application\");",
   "    console.log(\"This is a test message\");",
   "    return message;",
   "\x7d",
   "",
   "const title = \"Page Title\";",
   "const description = \"This is a description\";"]

def samples : List (Text × Text) :=
  [("test.html", samplePage), ("test.json", sampleDocument.write), ("test.js", sampleProgram)]

end Arabize.CommandLine
