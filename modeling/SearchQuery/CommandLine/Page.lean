import SearchQuery.Text

/-!
# Usage and help

Each command has a line of usage, shown in front of every complaint about its arguments, and a page
of help. Lines are at most 80 columns wide.
-/

namespace SearchQuery

/-- The commands, the program as a whole included. -/
inductive Page where
  | top
  | build
  | defaults
  | set
  | clear
  | show
deriving DecidableEq, Repr

namespace Page

/-- The words that lead to a command. -/
def program : Page → Text
  | .top => "ghquery".text
  | .build => "ghquery build".text
  | .defaults => "ghquery defaults".text
  | .set => "ghquery defaults set".text
  | .clear => "ghquery defaults clear".text
  | .show => "ghquery defaults show".text

/-- Texts one after the other, each on a line of its own. -/
def lines (ls : List String) : Text := ls.flatMap fun l => l.text ++ [.char '\n']

def usage : Page → Text
  | .top => lines ["usage: ghquery [-h] [--config CONFIG] [-v] \x7bbuild,defaults\x7d ..."]
  | .build => lines
    ["usage: ghquery build [-h] [-t QUALIFIERS] [-Q key=value] [-X key=value]",
     "                     [--timezoned] [--no-defaults]"]
  | .defaults => lines ["usage: ghquery defaults [-h] \x7bset,clear,show\x7d ..."]
  | .set => lines ["usage: ghquery defaults set [-h] key=value [key=value ...]"]
  | .clear => lines ["usage: ghquery defaults clear [-h]"]
  | .show => lines ["usage: ghquery defaults show [-h]"]

/-- What a page of help says behind the usage. -/
def body : Page → Text
  | .top => lines
    ["",
     "GitHub search query builder",
     "",
     "positional arguments:",
     "  \x7bbuild,defaults\x7d",
     "    build           Print a search query",
     "    defaults        Manage default qualifiers",
     "",
     "options:",
     "  -h, --help        show this help message and exit",
     "  --config CONFIG   Path to the config file",
     "  -v, --verbose     Enable debug logging"]
  | .build => lines
    ["",
     "options:",
     "  -h, --help            show this help message and exit",
     "  -t QUALIFIERS, --text QUALIFIERS",
     "                        Add a quoted text term (may be repeated)",
     "  -Q key=value, --qualifier key=value",
     "                        Add a search qualifier (may be repeated)",
     "  -X key=value, --exclude key=value",
     "                        Add a negated search qualifier (may be repeated)",
     "  --timezoned           Render dates with time and UTC offset",
     "  --no-defaults         Ignore default qualifiers from the config file"]
  | .defaults => lines
    ["",
     "positional arguments:",
     "  \x7bset,clear,show\x7d",
     "    set             Store default qualifiers",
     "    clear           Remove stored default qualifiers",
     "    show            Show stored settings",
     "",
     "options:",
     "  -h, --help        show this help message and exit"]
  | .set => lines
    ["",
     "positional arguments:",
     "  key=value",
     "",
     "options:",
     "  -h, --help  show this help message and exit"]
  | .clear => lines ["", "options:", "  -h, --help  show this help message and exit"]
  | .show => lines ["", "options:", "  -h, --help  show this help message and exit"]

def help (p : Page) : Text := p.usage ++ p.body

/-- What is printed when the arguments of a command are refused. -/
def complaint (p : Page) (message : Text) : Text :=
  p.usage ++ p.program ++ ": error: ".text ++ message ++ [.char '\n']

end Page

end SearchQuery
