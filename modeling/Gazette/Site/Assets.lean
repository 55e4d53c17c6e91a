/-!
# Assets

The texts that every page of the site comes with: style sheets, the script that shows times in the
reader's own zone, and the policy on what a page may load.
-/

namespace Gazette.Assets

def pageStyle : String :=
  String.intercalate "\n"
    ["",
      "*\x7bmargin:0;padding:0;box-sizing:border-box\x7d",
      ":root\x7b--bg:#fafafa;--fg:#111;--fg2:#555;--fg3:#999;--accent:#c0392b;--surface:#fff;--border:rgba(192,57,43,.18);--mono:\"SF Mono\",SFMono-Regular,ui-monospace,Menlo,monospace\x7d",
      "body\x7bfont-family:Georgia,\"Times New Roman\",serif;line-height:1.6;color:var(--fg);background:var(--bg);min-height:100vh;display:flex;flex-direction:column;align-items:center;padding:1.5rem 1rem\x7d",
      "header.masthead\x7bmax-width:720px;width:100%;display:flex;align-items:center;justify-content:space-between;gap:1rem;margin-bottom:1.5rem;flex-wrap:wrap\x7d",
      ".masthead-title\x7bfont-size:1.6rem;font-weight:700;color:var(--fg);letter-spacing:-.01em\x7d",
      ".masthead form\x7bdisplay:flex;gap:.4rem\x7d",
      ".masthead input[type=text]\x7bpadding:.35rem .6rem;border:1px solid var(--border);border-radius:6px;background:var(--surface);color:var(--fg)\x7d",
      ".masthead input[type=submit]\x7bpadding:.35rem .8rem;border:none;border-radius:6px;background:var(--accent);color:#fff;cursor:pointer\x7d",
      "main\x7bmax-width:720px;width:100%;flex:1\x7d",
      "a\x7bcolor:var(--accent);text-decoration:none\x7d",
      "a:hover\x7btext-decoration:underline\x7d",
      "img\x7bmax-width:100%;height:auto\x7d",
      "img.emoji\x7bwidth:1.25em;height:1.25em;vertical-align:-.25em\x7d",
      "",
      ".newsPost\x7bpadding:1.25rem 1.5rem;border:1px solid var(--border);border-radius:10px;margin-bottom:1rem;background:var(--surface);word-break:break-word\x7d",
      ".newsPost h1\x7bfont-size:1.45rem;line-height:1.3;margin:.5rem 0\x7d",
      ".newsPost h2\x7bfont-size:1.2rem;line-height:1.3;margin:.5rem 0\x7d",
      ".newsPost .sub\x7bdisplay:block;text-transform:uppercase;font-size:.75rem;letter-spacing:.08em;color:var(--accent);margin-top:.5rem\x7d",
      ".newsPost blockquote\x7bborder-left:3px solid var(--border);padding:.25rem 0 .25rem 1rem;margin:.5rem 0;color:var(--fg2)\x7d",
      ".newsPost pre\x7bbackground:var(--bg);border:1px solid var(--border);border-radius:6px;padding:.75rem 1rem;overflow-x:auto;margin:.5rem 0;font-size:.85rem\x7d",
      ".newsPost code\x7bfont-family:var(--mono);font-size:.88em\x7d",
      ".newsPost .spoiler\x7bbackground:var(--fg);color:var(--fg);border-radius:3px\x7d",
      ".newsPost .spoiler:hover\x7bcolor:var(--bg)\x7d",
      ".post-meta\x7bfont-size:.85rem;color:var(--fg3);margin-top:.75rem\x7d",
      "",
      ".attachmentList\x7bdisplay:grid;grid-template-columns:1fr 1fr;gap:4px;margin:.75rem 0\x7d",
      ".attachment\x7bwidth:100%;border-radius:6px;object-fit:cover\x7d",
      "",
      ".results\x7bdisplay:block;color:var(--fg2);margin-bottom:1rem\x7d",
      ".pager\x7bdisplay:flex;justify-content:space-between;margin:1rem 0\x7d",
      ".section-title\x7bfont-size:1.2rem;margin:2rem 0 1rem\x7d",
      "",
      ".footer\x7btext-align:center;margin-top:1rem;padding-top:.75rem;font-size:.8rem;color:var(--fg3);width:100%;max-width:720px\x7d",
      ".footer a\x7bcolor:var(--accent)\x7d",
      "",
      "@media(prefers-color-scheme:dark)\x7b",
      ":root\x7b--bg:#0f0f12;--fg:#e5e5e5;--fg2:#a0a0a0;--fg3:#666;--accent:#ff6b5b;--surface:#16161b;--border:rgba(255,107,91,.2)\x7d",
      "\x7d",
      ""]

def errorStyle : String :=
  String.intercalate "\n"
    ["",
      "*\x7bmargin:0;padding:0;box-sizing:border-box\x7d",
      "body\x7bfont-family:-apple-system,BlinkMacSystemFont,\"Segoe UI\",Roboto,sans-serif;display:flex;justify-content:center;align-items:center;min-height:100vh;background:#fafafa;color:#1a1a2e;padding:1rem\x7d",
      ".error-page\x7btext-align:center;max-width:400px\x7d",
      ".error-page h1\x7bfont-size:1.5rem;margin-bottom:.75rem\x7d",
      ".error-page p\x7bcolor:#666;margin-bottom:1rem;line-height:1.5\x7d",
      ".error-page a\x7bcolor:#c0392b\x7d",
      "@media(prefers-color-scheme:dark)\x7b",
      "body\x7bbackground:#0f0f17;color:#e0e0e8\x7d",
      ".error-page p\x7bcolor:#aaa\x7d",
      ".error-page a\x7bcolor:#ff6b5b\x7d",
      "\x7d",
      ""]

/-- The script that shows the times of a page in the reader's own zone. -/
def script : String :=
  String.intercalate "\n"
    ["(function () \x7b",
      "  \"use strict\";",
      "  var styles = \x7b",
      "    t: \x7b timeStyle: \"short\" \x7d,",
      "    T: \x7b timeStyle: \"medium\" \x7d,",
      "    d: \x7b dateStyle: \"short\" \x7d,",
      "    D: \x7b dateStyle: \"medium\" \x7d,",
      "    f: \x7b dateStyle: \"medium\", timeStyle: \"short\" \x7d,",
      "    F: \x7b dateStyle: \"long\", timeStyle: \"medium\" \x7d",
      "  \x7d;",
      "  var units = [",
      "    [\"year\", 31536000], [\"month\", 2592000], [\"week\", 604800],",
      "    [\"day\", 86400], [\"hour\", 3600], [\"minute\", 60], [\"second\", 1]",
      "  ];",
      "  function relative(date) \x7b",
      "    var diff = (date.getTime() - Date.now()) / 1000;",
      "    var rtf = new Intl.RelativeTimeFormat(undefined, \x7b numeric: \"auto\" \x7d);",
      "    for (var i = 0; i < units.length; i++) \x7b",
      "      if (Math.abs(diff) >= units[i][1] || units[i][0] === \"second\") \x7b",
      "        return rtf.format(Math.round(diff / units[i][1]), units[i][0]);",
      "      \x7d",
      "    \x7d",
      "  \x7d",
      "  document.querySelectorAll(\"time[data-format]\").forEach(function (el) \x7b",
      "    var date = new Date(el.getAttribute(\"datetime\"));",
      "    if (isNaN(date.getTime())) return;",
      "    var code = el.getAttribute(\"data-format\");",
      "    try \x7b",
      "      if (code === \"R\") \x7b",
      "        el.textContent = relative(date);",
      "      \x7d else if (styles[code]) \x7b",
      "        el.textContent = new Intl.DateTimeFormat(undefined, styles[code]).format(date);",
      "      \x7d",
      "      el.title = date.toLocaleString();",
      "    \x7d catch (e) \x7b\x7d",
      "  \x7d);",
      "\x7d)();",
      ""]

/-- What a page may load: styles of its own, the script of the site, and images. -/
def policy : String :=
  String.intercalate "; "
    ["default-src 'none'",
      "style-src 'unsafe-inline'",
      "script-src 'self'",
      "img-src https: data:",
      "form-action 'self'",
      "base-uri 'none'",
      "frame-ancestors 'none'"]

end Gazette.Assets
