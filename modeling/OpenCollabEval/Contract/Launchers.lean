import OpenCollabEval.Python.Text

/-!
# Launcher programs

The Python programs that a test command hands to `python3 -I -c`, cut at the places where the
command fills in its targets.
-/

open Python

namespace OpenCollabEval

/-- A program of whole lines, and the start of the line that follows them. -/
def programText (lines : List String) (rest : String) : Str :=
  (lines.flatMap fun line => lit line ++ [10]) ++ lit rest

/-- The discovery program up to the declared names. -/
def goDiscoveryHead : Str := programText [
    "import json",
    "import pathlib",
    "import re",
    "import subprocess",
    "import sys",
    ""] "declared = json.loads("

/-- The discovery program after the declared names. -/
def goDiscoveryTail : Str := programText [
    ")",
    "names = list(dict.fromkeys(test.split(\"/\", 1)[0] for test in declared))",
    "packages = \x7b\x7d",
    "target_files = \x7b\x7d",
    "for path in pathlib.Path(\".\").rglob(\"*_test.go\"):",
    "    if \".git\" in path.parts:",
    "        continue",
    "    try:",
    "        text = path.read_text(encoding=\"utf-8\", errors=\"replace\")",
    "    except OSError:",
    "        continue",
    "    matched = [",
    "        name for name in names",
    "        if re.search(r\"(?m)^func\\s+\" + re.escape(name) + r\"\\s*\\(\", text)",
    "    ]",
    "    if not matched:",
    "        continue",
    "    parent = path.parent.as_posix()",
    "    package = \".\" if parent == \".\" else \"./\" + parent",
    "    packages.setdefault(package, set()).update(matched)",
    "    target_files.setdefault(package, set()).add(path.as_posix())",
    "found = set().union(*packages.values()) if packages else set()",
    "missing = [name for name in names if name not in found]",
    "if missing:",
    "    print(\"unable to map Go tests to packages: \" + \", \".join(missing), file=sys.stderr)",
    "    raise SystemExit(127)",
    "status = 0",
    "for package in sorted(packages):",
    "    selected_roots = sorted(packages[package])",
    "    selected = [test for test in declared if test.split(\"/\", 1)[0] in selected_roots]",
    "    print(",
    "        \"OPENCOLLAB_GO_TARGET_DISCOVERY \"",
    "        + json.dumps(",
    "            \x7b",
    "                \"package\": package,",
    "                \"tests\": selected,",
    "                \"test_files\": sorted(target_files[package]),",
    "            \x7d,",
    "            sort_keys=True,",
    "        ),",
    "        flush=True,",
    "    )",
    "    passed = set()",
    "    selectors = []",
    "    for root in selected_roots:",
    "        root_targets = [test for test in selected if test.split(\"/\", 1)[0] == root]",
    "        if root in root_targets:",
    "            selectors.append((\"^\" + re.escape(root) + \"$\", root_targets))",
    "        else:",
    "            selectors.extend(",
    "                (",
    "                    \"/\".join(\"^\" + re.escape(component) + \"$\" for component in test.split(\"/\")),",
    "                    [test],",
    "                )",
    "                for test in root_targets",
    "            )",
    "    for pattern, expected in selectors:",
    "        process = subprocess.Popen(",
    "            [\"go\", \"test\", \"-count=1\", \"-json\", package, \"-run\", pattern],",
    "            stdout=subprocess.PIPE,",
    "            stderr=subprocess.STDOUT,",
    "            text=True,",
    "        )",
    "        for line in process.stdout:",
    "            print(line, end=\"\", flush=True)",
    "            try:",
    "                event = json.loads(line)",
    "            except json.JSONDecodeError:",
    "                continue",
    "            if event.get(\"Action\") == \"pass\" and event.get(\"Test\") in expected:",
    "                passed.add(event[\"Test\"])",
    "        returncode = process.wait()",
    "        if returncode != 0:",
    "            status = returncode",
    "            break",
    "    if passed != set(selected):",
    "        status = status or 1",
    "raise SystemExit(status)"] ""

/-- The launcher up to the digest of the declared targets. -/
def mochaLauncherHead : Str := programText [
    "import hashlib",
    "import json",
    "import os",
    "import pathlib",
    "import re",
    "import shutil",
    "import subprocess",
    "import sys",
    "",
    "tests = json.loads(open(sys.argv[1], encoding=\"utf-8\").read())",
    "canonical_tests = json.dumps(tests, ensure_ascii=True, separators=(\",\", \":\"))",
    "actual_targets_sha256 = hashlib.sha256(canonical_tests.encode(\"utf-8\")).hexdigest()"]
  "if actual_targets_sha256 != "

/-- The launcher between the digest and the imported-suite pattern. -/
def mochaLauncherMiddle : Str := programText [
    ":",
    "    print(\"Mocha target file does not match declared targets\", file=sys.stderr)",
    "    raise SystemExit(127)"] "imported_suite_marker = re.compile("

/-- The launcher after the imported-suite pattern. -/
def mochaLauncherTail : Str := programText [
    ")",
    "grouped = \x7b\x7d",
    "runtime_titles = set()",
    "for value in tests:",
    "    item = str(value)",
    "    if \" | \" not in item:",
    "        continue",
    "    test_file, title = item.split(\" | \", 1)",
    "    selector_title = imported_suite_marker.sub(\"\", title)",
    "    normalized_title = \" \".join(selector_title.split())",
    "    title_key = (test_file, normalized_title)",
    "    if not normalized_title or title_key in runtime_titles:",
    "        print(\"ambiguous NodeBB Mocha titles after import normalization\", file=sys.stderr)",
    "        raise SystemExit(127)",
    "    runtime_titles.add(title_key)",
    "    grouped.setdefault(test_file, []).append(selector_title)",
    "if not grouped:",
    "    print(\"missing declared Mocha titles\", file=sys.stderr)",
    "    raise SystemExit(127)",
    "status = 0",
    "for test_file in sorted(grouped):",
    "    print(\"OPENCOLLAB_MOCHA_FILE \" + json.dumps(test_file, ensure_ascii=True), flush=True)",
    "    selector = \"^(?:\" + \"|\".join(re.escape(title) for title in grouped[test_file]) + \")$\"",
    "    local_mocha = pathlib.Path(\"./node_modules/.bin/mocha\")",
    "    if local_mocha.is_file() and os.access(local_mocha, os.X_OK):",
    "        command = [\"./node_modules/.bin/mocha\", \"--timeout\", \"30000\", \"--reporter\", \"json-stream\", \"--grep\", selector, test_file]",
    "    elif shutil.which(\"yarn\"):",
    "        command = [\"yarn\", \"test\", \"--timeout\", \"30000\", \"--reporter\", \"json-stream\", \"--grep\", selector, test_file]",
    "    elif shutil.which(\"npx\"):",
    "        command = [\"npx\", \"mocha\", \"--timeout\", \"30000\", \"--reporter\", \"json-stream\", \"--grep\", selector, test_file]",
    "    elif shutil.which(\"pnpm\"):",
    "        command = [\"pnpm\", \"test\", \"--\", \"--timeout\", \"30000\", \"--reporter\", \"json-stream\", \"--grep\", selector, test_file]",
    "    elif shutil.which(\"corepack\"):",
    "        command = [\"corepack\", \"pnpm\", \"test\", \"--\", \"--timeout\", \"30000\", \"--reporter\", \"json-stream\", \"--grep\", selector, test_file]",
    "    else:",
    "        print(\"No supported JS test runner found for mocha\", file=sys.stderr)",
    "        raise SystemExit(127)",
    "    result = subprocess.run(command, text=True, stdout=subprocess.PIPE, stderr=subprocess.STDOUT)",
    "    print(result.stdout, end=\"\")",
    "    if result.returncode != 0:",
    "        status = result.returncode",
    "raise SystemExit(status)"] ""

/-- The statements that follow the patcher function, up to the declared targets. -/
def ospecPatcherHead : Str := programText [
    "",
    "patched = []",
    "for path in sorted(Path(\"test\").rglob(\"*\")):",
    "    if not path.is_file() or path.suffix not in \x7b\".js\", \".mjs\", \".ts\"\x7d:",
    "        continue",
    "    try:",
    "        original = path.read_text(encoding=\"utf-8\")"]
  "        instrumented = _patch_tutanota_suite(original, "

/-- The statements after the declared targets. -/
def ospecPatcherTail : Str := programText [
    ")",
    "    except (OSError, UnicodeError, ValueError):",
    "        continue",
    "    patched.append((path, instrumented))",
    "if not patched:",
    "    raise RuntimeError(\"cannot locate a Tutanota OTest reporter\")",
    "for path, instrumented in patched:",
    "    path.write_text(instrumented, encoding=\"utf-8\")"] ""

end OpenCollabEval
