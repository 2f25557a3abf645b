/-!
# How the command is used

The texts that the command shows when it is asked for help or is given words that it cannot make
sense of.
-/

namespace Cosmac.Command

/-- The name of the command. -/
def name : String := "chip8vm"

/-- The form of the command. -/
def usage : List String :=
  ["usage: chip8vm [-h]",
   "               [--profile \x7bchip8,default,schip,xochip\x7d | --quirks-file QUIRKS_FILE]",
   "               [--ipf IPF] [--scale SCALE] [--seed SEED] [--headless]",
   "               [--frames FRAMES] [--ascii] [--screenshot SCREENSHOT]",
   "               [--debug-log DEBUG_LOG] [-v]",
   "               rom"]

/-- What the words of the command mean. -/
def help : List String :=
  usage ++
  ["",
   "CHIP-8 interpreter with selectable quirks",
   "",
   "positional arguments:",
   "  rom                   Path to the CHIP-8 program image",
   "",
   "options:",
   "  -h, --help            show this help message and exit",
   "  --profile \x7bchip8,default,schip,xochip\x7d",
   "                        Named quirk profile (default: default, all quirks off)",
   "  --quirks-file QUIRKS_FILE",
   "                        JSON file with quirk switches or \x7b\"profile\": ...,",
   "                        \"overrides\": \x7b...\x7d\x7d",
   "  --ipf IPF             Instructions executed per 60 Hz frame (default: 20)",
   "  --scale SCALE         Window / screenshot scale factor (default: 10)",
   "  --seed SEED           Seed for the random number opcode",
   "  --headless            Run without a window",
   "  --frames FRAMES       Frames to run in headless mode (default: 600)",
   "  --ascii               Print the final display to the terminal (headless",
   "                        mode)",
   "  --screenshot SCREENSHOT",
   "                        Save the final display as a PNG (headless mode)",
   "  --debug-log DEBUG_LOG",
   "                        Also write log output to this file",
   "  -v, --verbose         Log every executed instruction",
   "",
   "Examples:",
   "  chip8vm games/pong.ch8",
   "  chip8vm games/pong.ch8 --profile schip --ipf 30",
   "  chip8vm tests/5-quirks.ch8 --quirks-file quirks.json",
   "  chip8vm ibm.ch8 --headless --frames 120 --ascii --screenshot ibm.png",
   "        "]

end Cosmac.Command
