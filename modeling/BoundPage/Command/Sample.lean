/-!
# The sample project

A page with a counter and a script that counts, which a new project starts with.
-/
namespace BoundPage.Command

/-- Lines, each with its end. -/
def textOfLines (lines : List String) : String := String.join (lines.map (· ++ "\n"))

def samplePageLines : List String :=
  ["\x7b",
   "  \"tree\": [",
   "    \x7b",
   "      \"tag\": \"div\",",
   "      \"id\": \"root:main\",",
   "      \"children\": [",
   "        \x7b \"tag\": \"h1\", \"id\": \"counter:main\", \"text\": \"0\" \x7d,",
   "        \x7b",
   "          \"tag\": \"p\",",
   "          \"id\": \"limit:main\",",
   "          \"styles\": \x7b \"display\": \"none\" \x7d,",
   "          \"text\": \"That's the limit\"",
   "        \x7d",
   "      ]",
   "    \x7d",
   "  ],",
   "  \"instances\": [",
   "    \x7b",
   "      \"id\": \"main\",",
   "      \"variables\": \x7b",
   "        \"count\": \x7b",
   "          \"value\": 0,",
   "          \"dependencies\": \x7b",
   "            \"counter\": [\x7b \"dependency_type\": \"Value\" \x7d],",
   "            \"limit\": [\x7b \"dependency_type\": \"Visible\", \"condition\": \"5\" \x7d]",
   "          \x7d",
   "        \x7d",
   "      \x7d",
   "    \x7d",
   "  ]",
   "\x7d"]

def sampleScriptLines : List String :=
  ["[",
   "  \x7b \"kind\": \"increment\", \"variable\": \"count\", \"by\": 2, \"clampMax\": 5 \x7d,",
   "  \x7b",
   "    \"kind\": \"interaction\",",
   "    \"actions\": [",
   "      \x7b",
   "        \"action\": \"increment\",",
   "        \"target\": \"count\",",
   "        \"parameters\": \x7b \"by\": [\x7b \"value\": \"3\", \"reference\": null \x7d] \x7d",
   "      \x7d",
   "    ]",
   "  \x7d",
   "]"]

def samples : List (String × String) :=
  [("counter.page.json", textOfLines samplePageLines), ("counter.script.json", textOfLines sampleScriptLines)]

end BoundPage.Command
